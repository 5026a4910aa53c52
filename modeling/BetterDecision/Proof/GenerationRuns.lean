import BetterDecision.Proof.CategoryEdits
import BetterDecision.Proof.Generation

/-!
# Generation, over any number of runs

A run walks each active series along its grid, at most `maxCatchupIterations` steps, and
writes a row only where the series has none. Here that is followed over many runs: how far
the frontier of a series got (`stepped`), which dates it passed (`spendDates`), and how many
rows stand on each date (`rowsOn`).

At one clock the runs together pass the first `cap * n` occurrences the forecast walks, so
nothing depends on how the cap cuts the work up. A promoted row is the case where a row
stands on the series before the first run.
-/

namespace BetterDecision

variable {db db' db'' : Db} {today : Int} {orgId recurringId : Nat} {r : RecurringTransaction}

/-! ## Steps of a series -/

/-- The template with its next occurrence consumed. -/
def stepSeries (r : RecurringTransaction) : RecurringTransaction := spent r (stepDate r.nextDueDate r.frequency)

def stepped : Nat → RecurringTransaction → RecurringTransaction
  | 0, r => r
  | k + 1, r => stepped k (stepSeries r)

/-- The first `k` dates from the frontier on. -/
def spendDates : Nat → RecurringTransaction → List Int
  | 0, _ => []
  | k + 1, r => r.nextDueDate :: spendDates k (stepSeries r)

theorem length_spendDates (k : Nat) (r : RecurringTransaction) : (spendDates k r).length = k := by
  induction k generalizing r with
  | zero => rfl
  | succ k ih => rw [spendDates, List.length_cons, ih]

theorem stepped_add (k l : Nat) (r : RecurringTransaction) : stepped (k + l) r = stepped l (stepped k r) := by
  induction k generalizing r with
  | zero => rw [Nat.zero_add, stepped]
  | succ k ih => rw [Nat.add_right_comm, stepped, stepped, ih]

theorem spendDates_add (k l : Nat) (r : RecurringTransaction) :
    spendDates (k + l) r = spendDates k r ++ spendDates l (stepped k r) := by
  induction k generalizing r with
  | zero => rw [Nat.zero_add, spendDates, stepped, List.nil_append]
  | succ k ih => rw [Nat.add_right_comm, spendDates, spendDates, stepped, ih, List.cons_append]

theorem spendDates_sorted (k : Nat) (r : RecurringTransaction) :
    (spendDates k r).Pairwise (· < ·) ∧ ∀ d ∈ spendDates k r, r.nextDueDate ≤ d := by
  induction k generalizing r with
  | zero => exact ⟨List.Pairwise.nil, fun d hd => by cases hd⟩
  | succ k ih =>
    obtain ⟨hsorted, hfrom⟩ := ih (stepSeries r)
    have hforward : r.nextDueDate < (stepSeries r).nextDueDate := lt_stepDate r.nextDueDate r.frequency
    have hlater : ∀ d ∈ spendDates k (stepSeries r), r.nextDueDate < d := by
      intro d hd
      have := hfrom d hd
      omega
    refine ⟨List.pairwise_cons.mpr ⟨hlater, hsorted⟩, ?_⟩
    intro d hd
    rcases List.mem_cons.mp hd with rfl | hd
    · omega
    · exact Int.le_of_lt (hlater d hd)

/-- What a step leaves of a template. -/
theorem stepped_same (k : Nat) (r : RecurringTransaction) :
    (stepped k r).type = r.type ∧ (stepped k r).orgId = r.orgId ∧ (stepped k r).isActive = r.isActive ∧
      (stepped k r).frequency = r.frequency ∧ (stepped k r).occurrenceCount = r.occurrenceCount ∧
        (stepped k r).occurrencesElapsed = r.occurrencesElapsed + k := by
  induction k generalizing r with
  | zero => exact ⟨rfl, rfl, rfl, rfl, rfl, (Int.add_zero _).symm⟩
  | succ k ih =>
    obtain ⟨htype, horg, hactive, hfreq, hcount, helapsed⟩ := ih (stepSeries r)
    refine ⟨htype, horg, hactive, hfreq, hcount, ?_⟩
    rw [stepped, helapsed]
    show r.occurrencesElapsed + 1 + k = r.occurrencesElapsed + ((k + 1 : Nat) : Int)
    omega

/-! ## Rows on a date -/

/-- How many rows of a series, or of none, stand on a date. -/
def rowsOn (db : Db) (orgId : Nat) (series : Option Nat) (d : Int) : Nat :=
  (db.transactions.select (fun _ t => t.orgId == orgId && t.recurringId == series && t.date == d)).length

/-- How many rows an occurrence is written as. -/
def legsOf (r : RecurringTransaction) : Nat := if r.type = .transfer then 2 else 1

theorem occurrenceExists_eq_false {d : Int} :
    occurrenceExists db orgId recurringId d = false ↔ rowsOn db orgId (some recurringId) d = 0 := by
  rw [← Bool.not_eq_true, occurrenceExists_iff, rowsOn, List.length_eq_zero_iff, List.eq_nil_iff_forall_not_mem]
  constructor
  · intro hnone row hrow
    obtain ⟨i, t⟩ := row
    obtain ⟨hget, htest⟩ := Table.mem_select.mp hrow
    simp only [Bool.and_eq_true, beq_iff_eq] at htest
    exact hnone ⟨i, t, hget, htest.1.1, htest.1.2, htest.2⟩
  · intro hnone hexists
    obtain ⟨i, t, hget, horg, hid, hd⟩ := hexists
    exact hnone (i, t) (Table.mem_select.mpr ⟨hget, by simp [horg, hid, hd]⟩)

theorem length_select_insertAll (rows : List Transaction) (t : Table Transaction) (test : Transaction → Bool) :
    ((rows.foldl Table.insert t).select (fun _ a => test a)).length =
      (t.select (fun _ a => test a)).length + rows.countP test := by
  induction rows generalizing t with
  | nil => rfl
  | cons a rows ih =>
    rw [List.foldl_cons, ih, Table.select_insert, List.length_append, List.countP_cons]
    by_cases ha : test a = true
    · rw [if_pos ha, if_pos ha, List.length_singleton]
      omega
    · rw [if_neg ha, if_neg ha, List.length_nil]
      omega

/-- **A round puts the rows of one occurrence on its date, if none stood there.** -/
theorem Round.rowsOn (h : Round today orgId recurringId r db db') (series : Option Nat) (d : Int) :
    rowsOn db' orgId series d = rowsOn db orgId series d +
      if series = some recurringId ∧ d = r.nextDueDate ∧ rowsOn db orgId series d = 0 then legsOf r else 0 := by
  have hrows : BetterDecision.rowsOn db' orgId series d = BetterDecision.rowsOn db orgId series d +
      (roundRows db today orgId recurringId r).countP
        (fun t => t.orgId == orgId && t.recurringId == series && t.date == d) := by
    rw [BetterDecision.rowsOn, h.rows, length_select_insertAll]
    rfl
  rw [hrows]
  congr 1
  by_cases hthere : series = some recurringId ∧ d = r.nextDueDate
  · obtain ⟨rfl, rfl⟩ := hthere
    unfold roundRows
    cases hexists : occurrenceExists db orgId recurringId r.nextDueDate with
    | true =>
      have hne : BetterDecision.rowsOn db orgId (some recurringId) r.nextDueDate ≠ 0 := by
        intro hzero
        rw [occurrenceExists_eq_false.mpr hzero] at hexists
        cases hexists
      rw [if_pos rfl, if_neg fun hall => hne hall.2.2]
      rfl
    | false =>
      rw [if_neg Bool.false_ne_true, if_pos ⟨rfl, rfl, occurrenceExists_eq_false.mp hexists⟩]
      have hall : ∀ t ∈ occurrenceRows orgId recurringId r r.nextDueDate (settlesAt today r r.nextDueDate)
          db.transactions.next,
          (t.orgId == orgId && t.recurringId == some recurringId && t.date == r.nextDueDate) = true := by
        intro t ht
        obtain ⟨horg, hid, hd, -⟩ := mem_occurrenceRows ht
        simp [horg, hid, hd]
      rw [List.countP_eq_length.mpr hall]
      unfold occurrenceRows legsOf
      dsimp only
      by_cases htype : r.type = .transfer
      · rw [if_pos htype, if_pos htype]
        obtain ⟨toAccountId, hto⟩ := Option.isSome_iff_exists.mp (h.paired hexists htype)
        rw [hto]
        rfl
      · rw [if_neg htype, if_neg htype]
        rfl
  · rw [if_neg fun hall => hthere ⟨hall.1, hall.2.1⟩]
    refine List.countP_eq_zero.mpr fun t ht htest => hthere ?_
    obtain ⟨-, hid, hd, -⟩ := mem_occurrenceRows (mem_roundRows ht).2
    simp only [Bool.and_eq_true, beq_iff_eq] at htest
    exact ⟨htest.1.2.symm.trans hid, htest.2.symm.trans hd⟩

/-! ## A walk -/

theorem Round.stepped (h : Round today orgId recurringId r db db') :
    db'.recurring.get? recurringId = some (stepSeries r) := by
  obtain ⟨next, hnext, hget⟩ := h.get?
  rw [hget, (advanceDate_eq_ok.mp hnext).2]
  rfl

/-- A walk passes the dates it is said to, and leaves the frontier behind the last. -/
theorem Rounds.stepped {ds : List Int} (h : Rounds today orgId recurringId ds db db')
    (hr : db.recurring.get? recurringId = some r) :
    ds = spendDates ds.length r ∧ db'.recurring.get? recurringId = some (stepped ds.length r) := by
  induction h generalizing r with
  | done => exact ⟨rfl, hr⟩
  | @round r₀ ds db mid db' hround _ ih =>
    obtain rfl : r = r₀ := by rw [hround.there] at hr; exact (Option.some.inj hr).symm
    obtain ⟨hds, hget⟩ := ih hround.stepped
    exact ⟨congrArg (r.nextDueDate :: ·) hds, hget⟩

theorem Rounds.rowsOn {ds : List Int} (h : Rounds today orgId recurringId ds db db') (hsorted : ds.Pairwise (· < ·))
    (hr : db.recurring.get? recurringId = some r) (series : Option Nat) (d : Int) :
    rowsOn db' orgId series d = rowsOn db orgId series d +
      if series = some recurringId ∧ d ∈ ds ∧ rowsOn db orgId series d = 0 then legsOf r else 0 := by
  induction h generalizing r with
  | done => simp
  | @round r₀ ds db mid db' hround _ ih =>
    obtain rfl : r = r₀ := by rw [hround.there] at hr; exact (Option.some.inj hr).symm
    obtain ⟨hlt, htail⟩ := List.pairwise_cons.mp hsorted
    have hlegs : legsOf (stepSeries r) = legsOf r := rfl
    have hmid := hround.rowsOn series d
    rw [ih htail hround.stepped, hlegs]
    by_cases hd : d = r.nextDueDate
    · -- the date of this round is not passed again
      have hnot : d ∉ ds := by
        intro hmem
        have := hlt d hmem
        omega
      rw [if_neg fun hall => hnot hall.2.1, Nat.add_zero, hmid]
      congr 1
      refine if_congr ?_ rfl rfl
      rw [hd]
      exact ⟨fun hall => ⟨hall.1, List.mem_cons_self, hall.2.2⟩, fun hall => ⟨hall.1, rfl, hall.2.2⟩⟩
    · rw [if_neg fun hall => hd hall.2.1, Nat.add_zero] at hmid
      rw [hmid]
      congr 1
      refine if_congr ?_ rfl rfl
      rw [List.mem_cons, or_iff_right hd]

/-- What is left of the grid after a walk along it. -/
theorem Rounds.grid_left {periodEnd : Int} {ds : List Int} (h : Rounds today orgId recurringId ds db db')
    (hr : db.recurring.get? recurringId = some r)
    (halong : ds <+: grid r.frequency periodEnd r.nextDueDate (remainingOccurrences r)) :
    grid r.frequency periodEnd (BetterDecision.stepped ds.length r).nextDueDate
        (remainingOccurrences (BetterDecision.stepped ds.length r)) =
      (grid r.frequency periodEnd r.nextDueDate (remainingOccurrences r)).drop ds.length := by
  induction h generalizing r with
  | done => rfl
  | @round r₀ ds db mid db' hround _ ih =>
    obtain rfl : r = r₀ := by rw [hround.there] at hr; exact (Option.some.inj hr).symm
    have hle : r.nextDueDate ≤ periodEnd := (mem_grid_bounds (halong.subset List.mem_cons_self)).2
    obtain ⟨next, hnext, -⟩ := hround.get?
    have hcons : grid r.frequency periodEnd r.nextDueDate (remainingOccurrences r) =
        r.nextDueDate :: grid r.frequency periodEnd (stepSeries r).nextDueDate (remainingOccurrences (stepSeries r)) := by
      rw [grid_cons hle hround.left, nextOccurrence_eq_some.mpr hnext, stepSeries, remainingOccurrences_spent,
        (advanceDate_eq_ok.mp hnext).2]
      rfl
    rw [hcons] at halong ⊢
    obtain ⟨-, htail⟩ := List.cons_prefix_cons.mp halong
    rw [List.length_cons, List.drop_succ_cons, BetterDecision.stepped]
    exact ih hround.stepped htail

/-! ## A series, followed through -/

/-- Series `i`, whose template stands as `r`, passes the dates `ds`. -/
structure SeriesRun (orgId i : Nat) (r : RecurringTransaction) (ds : List Int) (db db' : Db) : Prop where
  dates : ds = spendDates ds.length r
  template : db'.recurring.get? i = some (stepped ds.length r)
  rows : ∀ d, rowsOn db' orgId (some i) d = rowsOn db orgId (some i) d +
    if d ∈ ds ∧ rowsOn db orgId (some i) d = 0 then legsOf r else 0
  within : ∀ n ∈ remainingOccurrences r, (ds.length : Int) ≤ max n 0
  left : ∀ periodEnd, ds <+: grid r.frequency periodEnd r.nextDueDate (remainingOccurrences r) →
    grid r.frequency periodEnd (stepped ds.length r).nextDueDate (remainingOccurrences (stepped ds.length r)) =
      (grid r.frequency periodEnd r.nextDueDate (remainingOccurrences r)).drop ds.length

/-- A series that nothing touches. -/
theorem seriesRun_of_same {i : Nat} (hr : db'.recurring.get? i = some r)
    (hrows : ∀ d, rowsOn db' orgId (some i) d = rowsOn db orgId (some i) d) : SeriesRun orgId i r [] db db' := by
  refine ⟨rfl, hr, ?_, ?_, ?_⟩
  · intro d
    rw [hrows, if_neg fun hall => List.not_mem_nil hall.1, Nat.add_zero]
  · intro n _
    exact Int.le_max_right n 0
  · intro periodEnd _
    rfl

theorem legsOf_pos (r : RecurringTransaction) : 0 < legsOf r := by
  unfold legsOf
  split <;> omega

theorem remainingOccurrences_stepped (k : Nat) (r : RecurringTransaction) :
    remainingOccurrences (stepped k r) = (remainingOccurrences r).map (· - (k : Int)) := by
  obtain ⟨-, -, -, -, hcount, helapsed⟩ := stepped_same k r
  unfold remainingOccurrences
  rw [hcount, helapsed]
  cases r.occurrenceCount with
  | none => rfl
  | some n =>
    rw [Option.map_some, Option.map_some, Option.map_some]
    congr 1
    omega

theorem SeriesRun.trans {i : Nat} {ds ds' : List Int} (h : SeriesRun orgId i r ds db db')
    (k : SeriesRun orgId i (stepped ds.length r) ds' db' db'') : SeriesRun orgId i r (ds ++ ds') db db'' := by
  have hlegs : legsOf (stepped ds.length r) = legsOf r := by
    unfold legsOf
    rw [(stepped_same ds.length r).1]
  refine ⟨?_, ?_, ?_, ?_, ?_⟩
  · rw [List.length_append, spendDates_add, ← h.dates, ← k.dates]
  · rw [List.length_append, stepped_add]
    exact k.template
  · intro d
    have hfirst := h.rows d
    rw [k.rows d, hlegs]
    by_cases hold : rowsOn db orgId (some i) d = 0
    · by_cases hd : d ∈ ds
      · -- written by the first run, so the second leaves it
        have hpos := legsOf_pos r
        rw [if_pos ⟨hd, hold⟩] at hfirst
        rw [if_neg fun hall => by omega, if_pos ⟨List.mem_append_left _ hd, hold⟩, hfirst, Nat.add_zero]
      · rw [if_neg fun hall => hd hall.1, Nat.add_zero] at hfirst
        rw [hfirst]
        congr 1
        refine if_congr ?_ rfl rfl
        rw [List.mem_append, or_iff_right hd]
    · rw [if_neg fun hall => hold hall.2, Nat.add_zero] at hfirst
      rw [hfirst, if_neg fun hall => hold hall.2, if_neg fun hall => hold hall.2]
  · intro n hn
    have hfirst := h.within n hn
    have hsecond : (ds'.length : Int) ≤ max (n - (ds.length : Int)) 0 := by
      refine k.within _ ?_
      rw [remainingOccurrences_stepped, Option.mem_def.mp hn]
      exact Option.mem_some_self _
    rw [List.length_append]
    push_cast
    omega
  · intro periodEnd halong
    have hfreq : (stepped ds.length r).frequency = r.frequency := (stepped_same ds.length r).2.2.2.1
    have hleft := h.left periodEnd ((List.prefix_append ds ds').trans halong)
    have hrest : ds' <+: (grid r.frequency periodEnd r.nextDueDate (remainingOccurrences r)).drop ds.length := by
      obtain ⟨tail, htail⟩ := halong
      refine ⟨tail, ?_⟩
      rw [← htail, List.append_assoc, List.drop_left]
    have hsecond := k.left periodEnd (by rw [hfreq, hleft]; exact hrest)
    rw [hfreq, hleft] at hsecond
    rw [List.length_append, stepped_add, hsecond, List.drop_drop]

/-- Every date a walk passes was passed with an instalment left. -/
theorem Rounds.within {ds : List Int} (h : Rounds today orgId recurringId ds db db')
    (hr : db.recurring.get? recurringId = some r) : ∀ n ∈ remainingOccurrences r, (ds.length : Int) ≤ max n 0 := by
  induction h generalizing r with
  | done =>
    intro n _
    exact Int.le_max_right n 0
  | @round r₀ ds db mid db' hround _ ih =>
    obtain rfl : r = r₀ := by rw [hround.there] at hr; exact (Option.some.inj hr).symm
    intro n hn
    have hleft := hround.left
    rw [Option.mem_def.mp hn] at hleft
    have hpos : 0 < n := of_decide_eq_true hleft
    have hrest : (ds.length : Int) ≤ max (n - 1) 0 := by
      refine ih hround.stepped (n - 1) ?_
      rw [stepSeries, remainingOccurrences_spent, Option.mem_def.mp hn]
      exact Option.mem_some_self _
    rw [List.length_cons]
    push_cast
    omega

theorem Rounds.seriesRun {ds : List Int} (h : Rounds today orgId recurringId ds db db') (hsorted : ds.Pairwise (· < ·))
    (hr : db.recurring.get? recurringId = some r) : SeriesRun orgId recurringId r ds db db' := by
  refine ⟨(h.stepped hr).1, (h.stepped hr).2, ?_, h.within hr, fun _ => h.grid_left hr⟩
  intro d
  rw [h.rowsOn hsorted hr (some recurringId) d]
  congr 1
  exact if_congr ⟨fun hall => hall.2, fun hall => ⟨rfl, hall⟩⟩ rfl rfl

/-! ## A run -/

/-- Before and after a run that only others are touched by. -/
theorem SeriesRun.framed {i : Nat} {ds : List Int} {mid mid' : Db} (h : SeriesRun orgId i r ds mid mid')
    (hbefore : ∀ d, rowsOn mid orgId (some i) d = rowsOn db orgId (some i) d)
    (hafter : ∀ d, rowsOn db' orgId (some i) d = rowsOn mid' orgId (some i) d)
    (htemplate : db'.recurring.get? i = mid'.recurring.get? i) : SeriesRun orgId i r ds db db' := by
  refine ⟨h.dates, by rw [htemplate, h.template], ?_, h.within, h.left⟩
  intro d
  rw [hafter, h.rows, hbefore]

/-- **A run of the templates takes each due series along its own walk**, and no other. -/
theorem templates_series {pStart periodEnd : Int} :
    ∀ (ps : List (Nat × RecurringTransaction)) {db db' : Db} {tally tally' : GenerateTally},
      (ps.map Prod.fst).Nodup → (∀ p ∈ ps, db.recurring.get? p.1 = some p.2 ∧ p.2.orgId = orgId ∧ p.2.isActive = true) →
      (ps.map Prod.fst).foldlM (fun acc recurringId =>
        generateFor today orgId recurringId pStart periodEnd maxCatchupIterations acc) (db, tally) =
          .ok (db', tally') →
      (∀ p ∈ ps, SeriesRun orgId p.1 p.2 (walkedDates periodEnd maxCatchupIterations p.2) db db') ∧
        (∀ j, j ∉ ps.map Prod.fst → db'.recurring.get? j = db.recurring.get? j) ∧
          ∀ series : Option Nat, (∀ j ∈ series, j ∉ ps.map Prod.fst) →
            ∀ d, rowsOn db' orgId series d = rowsOn db orgId series d
  | [], db, db', tally, tally', _, _, h => by
    rw [List.map_nil, List.foldlM_nil, pure_eq_ok] at h
    obtain rfl : db = db' := (Prod.mk.inj h).1
    exact ⟨fun p hp => absurd hp List.not_mem_nil, fun _ _ => rfl, fun _ _ _ => rfl⟩
  | p :: ps, db, db', tally, tally', hnodup, hthere, h => by
    rw [List.map_cons, List.foldlM_cons, bind_eq_ok] at h
    obtain ⟨⟨mid, tallyMid⟩, hwalk, hrest⟩ := h
    obtain ⟨hnot, hnodup⟩ := List.nodup_cons.mp hnodup
    obtain ⟨hget, horg, hactive⟩ := hthere p List.mem_cons_self
    have hfind : findRecurring db orgId p.1 = some p.2 := by
      rw [findRecurring, hget, Option.filter_some, if_pos (by simpa using horg)]
    -- the first series is walked alone, and the others never touch its rows or its template
    have hrounds := generateFor_rounds maxCatchupIterations hfind hactive hwalk
    have hsorted := walkedDates_sorted periodEnd maxCatchupIterations p.2
    obtain ⟨-, hother, -⟩ := hrounds.frame
    have hrows : ∀ (series : Option Nat) (d : Int), series ≠ some p.1 →
        rowsOn mid orgId series d = rowsOn db orgId series d := by
      intro series d hne
      rw [hrounds.rowsOn hsorted hget series d, if_neg fun hall => hne hall.1, Nat.add_zero]
    have hne : ∀ q ∈ ps, q.1 ≠ p.1 := fun q hq he => hnot (he ▸ List.mem_map_of_mem hq)
    obtain ⟨hwalked, htemplates, hothers⟩ := templates_series ps hnodup (fun q hq =>
      ⟨(hother q.1 (hne q hq)).trans (hthere q (List.mem_cons_of_mem _ hq)).1,
        (hthere q (List.mem_cons_of_mem _ hq)).2⟩) hrest
    refine ⟨?_, ?_, ?_⟩
    · intro q hq
      rcases List.mem_cons.mp hq with rfl | hq
      · refine (hrounds.seriesRun hsorted hget).framed (fun _ => rfl) (hothers (some q.1) ?_) (htemplates q.1 hnot)
        intro j hj
        rw [← Option.some.inj hj]
        exact hnot
      · refine (hwalked q hq).framed (fun d => hrows _ d ?_) (fun _ => rfl) rfl
        intro he
        exact hne q hq (Option.some.inj he)
    · intro j hj
      have hjp : j ≠ p.1 := fun he => hj (he ▸ List.mem_cons_self)
      have hjps : j ∉ ps.map Prod.fst := fun hmem => hj (List.mem_cons_of_mem _ hmem)
      rw [htemplates j hjps, hother j hjp]
    · intro series hseries d
      rw [hothers series (fun j hj hmem => hseries j hj (List.mem_cons_of_mem _ hmem)) d]
      refine hrows series d fun he => ?_
      exact hseries p.1 he List.mem_cons_self

/-- The end of the billing cycle a run generates to. -/
def generationEnd (db : Db) (orgId : Nat) (today : Int) : Int := (currentCycleWindow (cycleDayOf db orgId) today).2

theorem rowsOn_sweep {ids : List Nat}
    (h : db'.transactions = db.transactions.mapRows (fun i t => if i ∈ ids then settledRow t else t))
    (series : Option Nat) (d : Int) : rowsOn db' orgId series d = rowsOn db orgId series d := by
  unfold rowsOn
  rw [h, Table.length_select_mapRows]
  intro i t _
  split <;> rfl

/-- No active template of the org is under the id. -/
def Idle (db : Db) (orgId i : Nat) : Prop :=
  ∀ r, db.recurring.get? i = some r → r.orgId = orgId → r.isActive = false

/-- **A run takes every active series along its walk, and writes to nothing else.** -/
theorem generateDueTransactions_series {result : GenerateResult}
    (h : generateDueTransactions db today orgId = .ok (db', result)) :
    (∀ i r, db.recurring.get? i = some r → r.orgId = orgId → r.isActive = true →
      SeriesRun orgId i r (walkedDates (generationEnd db orgId today) maxCatchupIterations r) db db') ∧
    (∀ i, Idle db orgId i → db'.recurring.get? i = db.recurring.get? i) ∧
    (∀ series : Option Nat, (∀ i ∈ series, Idle db orgId i) →
      ∀ d, rowsOn db' orgId series d = rowsOn db orgId series d) := by
  obtain ⟨mid, n, tally, hsweep, hwalks⟩ := generateDueTransactions_ok h
  -- the sweep settles rows where they stand, so it changes no series
  have hswept := settleDueAuto_ok hsweep
  have hrecurring : mid.recurring = db.recurring := by rw [hswept]; rfl
  have hrows : ∀ series d, rowsOn mid orgId series d = rowsOn db orgId series d :=
    rowsOn_sweep (by rw [hswept]; rfl)
  obtain ⟨hwalked, htemplates, hothers⟩ := templates_series _ (dueSeries_nodup ..) (fun p hp => dueSeries_spec hp) hwalks
  have hidle : ∀ i, Idle db orgId i → i ∉ (dueSeries mid orgId (generationEnd db orgId today)).map Prod.fst := by
    intro i hi hmem
    obtain ⟨p, hp, rfl⟩ := List.mem_map.mp hmem
    obtain ⟨hget, horg, hactive⟩ := dueSeries_spec hp
    rw [hi p.2 (by rw [← hrecurring, hget]) horg] at hactive
    cases hactive
  refine ⟨?_, ?_, ?_⟩
  · intro i r hr horg hactive
    have hmid : mid.recurring.get? i = some r := by rw [hrecurring, hr]
    by_cases hdue : hasRemainingOccurrences r = true ∧ r.nextDueDate ≤ generationEnd db orgId today
    · have hmem : (i, r) ∈ dueSeries mid orgId (generationEnd db orgId today) :=
        Table.mem_select.mpr ⟨hmid, by simp [horg, hactive, hdue.1, hdue.2]⟩
      exact (hwalked (i, r) hmem).framed (hrows _) (fun _ => rfl) rfl
    · -- nothing is due, and the walk is empty
      have hnil : walkedDates (generationEnd db orgId today) maxCatchupIterations r = [] := by
        unfold walkedDates
        by_cases hle : r.nextDueDate ≤ generationEnd db orgId today
        · rw [grid_of_spent (by simpa [hasRemainingOccurrences, hle] using hdue), List.take_nil]
        · rw [grid_of_lt (by omega), List.take_nil]
      have hnot : i ∉ (dueSeries mid orgId (generationEnd db orgId today)).map Prod.fst := by
        intro hmem
        obtain ⟨⟨j, q⟩, hq, rfl⟩ := List.mem_map.mp hmem
        obtain ⟨hget, htest⟩ := Table.mem_select.mp hq
        rw [hmid] at hget
        obtain rfl := Option.some.inj hget
        simp only [Bool.and_eq_true, decide_eq_true_eq] at htest
        exact hdue ⟨htest.1.2, htest.2⟩
      rw [hnil]
      refine seriesRun_of_same (by rw [htemplates i hnot, hmid]) fun d => ?_
      rw [hothers (some i) (fun j hj => by rwa [← Option.some.inj hj]) d, hrows]
  · intro i hi
    rw [htemplates i (hidle i hi), hrecurring]
  · intro series hseries d
    rw [hothers series (fun i hi => hidle i (hseries i hi)) d, hrows]

/-! ## Many runs -/

/-- Generation, run after run, each at its own clock. -/
def generations (orgId : Nat) (todays : List Int) (db : Db) : Result Db :=
  todays.foldlM (fun db today => (generateDueTransactions db today orgId).map Prod.fst) db

/-- The occurrences a template has in a cycle that ends at `periodEnd`, as the forecast walks
them from its frontier. -/
def coming (periodEnd : Int) (r : RecurringTransaction) : List Int :=
  occurrencesInWindow r.nextDueDate r.frequency r.nextDueDate periodEnd (remainingOccurrences r)

theorem coming_eq_grid (periodEnd : Int) (r : RecurringTransaction) :
    coming periodEnd r = grid r.frequency periodEnd r.nextDueDate (remainingOccurrences r) := by
  unfold coming
  rw [occurrencesInWindow_eq]
  refine List.filter_eq_self.mpr fun x hx => ?_
  have := (mem_grid_bounds hx).1
  exact decide_eq_true this

theorem generations_cons {todays : List Int} (h : generations orgId (today :: todays) db = .ok db') :
    ∃ mid result, generateDueTransactions db today orgId = .ok (mid, result) ∧ generations orgId todays mid = .ok db' := by
  rw [generations, List.foldlM_cons] at h
  obtain ⟨mid, hfirst, hrest⟩ := bind_eq_ok.mp h
  obtain ⟨result, hfirst⟩ := map_fst_ok hfirst
  exact ⟨mid, result, hfirst, hrest⟩

theorem generationEnd_of_untouched (h : Untouched db db') (today : Int) :
    generationEnd db' orgId today = generationEnd db orgId today := by
  unfold generationEnd cycleDayOf
  rw [h.organizations]

/-- The first `m` of a list, and then the first `n` of what is left. -/
theorem take_drop_length {α : Type*} (l : List α) (m n : Nat) :
    l.take m ++ (l.drop (l.take m).length).take n = l.take (m + n) := by
  rw [List.take_add, List.length_take]
  congr 2
  rcases Nat.le_total m l.length with h | h
  · rw [Nat.min_eq_left h]
  · rw [Nat.min_eq_right h, List.drop_length, List.drop_eq_nil_of_le h]

/-- Runs at one clock pass the first occurrences of the cycle, `maxCatchupIterations` a run. -/
theorem generations_series (n : Nat) {i : Nat} (h : generations orgId (List.replicate n today) db = .ok db')
    (hr : db.recurring.get? i = some r) (horg : r.orgId = orgId) (hactive : r.isActive = true) :
    SeriesRun orgId i r ((coming (generationEnd db orgId today) r).take (maxCatchupIterations * n)) db db' := by
  induction n generalizing db r with
  | zero =>
    obtain rfl : db = db' := Except.ok.inj h
    rw [Nat.mul_zero, List.take_zero]
    exact seriesRun_of_same hr fun _ => rfl
  | succ n ih =>
    obtain ⟨mid, result, hfirst, hrest⟩ := generations_cons h
    have hrun := (generateDueTransactions_series hfirst).1 i r hr horg hactive
    obtain ⟨-, hsorg, hsactive, hsfreq, -⟩ := stepped_same
      (walkedDates (generationEnd db orgId today) maxCatchupIterations r).length r
    have hnext := ih hrest hrun.template (hsorg.trans horg) (hsactive.trans hactive)
    have hend : generationEnd mid orgId today = generationEnd db orgId today :=
      generationEnd_of_untouched (generateDueTransactions_untouched hfirst) today
    -- what is coming after a run is what the run left of it
    have hleft := hrun.left (generationEnd db orgId today) (List.take_prefix _ _)
    rw [hend, coming_eq_grid, hsfreq, hleft] at hnext
    have hboth := hrun.trans hnext
    have hsum : maxCatchupIterations * (n + 1) = maxCatchupIterations + maxCatchupIterations * n := by
      rw [Nat.mul_succ, Nat.add_comm]
    rw [coming_eq_grid, hsum, ← take_drop_length]
    exact hboth

theorem generations_others {todays : List Int} {series : Option Nat} (h : generations orgId todays db = .ok db')
    (hidle : ∀ i ∈ series, Idle db orgId i) (d : Int) : rowsOn db' orgId series d = rowsOn db orgId series d := by
  induction todays generalizing db with
  | nil =>
    obtain rfl : db = db' := Except.ok.inj h
    rfl
  | cons today todays ih =>
    obtain ⟨mid, result, hfirst, hrest⟩ := generations_cons h
    obtain ⟨-, htemplates, hrows⟩ := generateDueTransactions_series hfirst
    rw [ih hrest ?_, hrows series hidle d]
    intro i hi r hr
    rw [htemplates i (hidle i hi)] at hr
    exact hidle i hi r hr

/-- **Generation writes exactly the forecast's occurrences.** However often it runs in a cycle,
an active series has its rows put on the first of the dates `occurrences_in_window` walks, as
many as the cap lets through, where it had none; its frontier stands behind them; and a row
that belongs to no active series is never written. -/
theorem generation_writes_occurrences (n : Nat) (h : generations orgId (List.replicate n today) db = .ok db') :
    (∀ i r, db.recurring.get? i = some r → r.orgId = orgId → r.isActive = true →
      db'.recurring.get? i =
          some (stepped ((coming (generationEnd db orgId today) r).take (maxCatchupIterations * n)).length r) ∧
        ∀ d, rowsOn db' orgId (some i) d = rowsOn db orgId (some i) d +
          if d ∈ (coming (generationEnd db orgId today) r).take (maxCatchupIterations * n) ∧
            rowsOn db orgId (some i) d = 0 then legsOf r else 0) ∧
      ∀ series : Option Nat, (∀ i ∈ series, Idle db orgId i) →
        ∀ d, rowsOn db' orgId series d = rowsOn db orgId series d := by
  constructor
  · intro i r hr horg hactive
    have hrun := generations_series n h hr horg hactive
    exact ⟨hrun.template, hrun.rows⟩
  · intro series hidle d
    exact generations_others h hidle d

theorem gym_amount_pos : (0 : Int) < 2500 := by decide

/-- A monthly series of three that has its first row already. -/
def gymLedger : Db where
  organizations := Table.empty.insert {}
  accounts := Table.empty.insert { orgId := 1, name := "Checking" }
  transactions := Table.empty.insert
    { orgId := 1, accountId := 1, categoryId := 1, description := "Gym", amount := ⟨2500, gym_amount_pos⟩,
      type := .expense, status := .pending, recurringId := some 1, date := 738000 }
  recurring := Table.empty.insert
    { orgId := 1, accountId := 1, categoryId := 1, description := "Gym", amount := ⟨2500, gym_amount_pos⟩,
      type := .expense, frequency := .monthly, nextDueDate := 738000, occurrenceCount := some 3 }

/-- Two runs pass two dates of it, and write a row on the second. -/
theorem generation_writes_occurrences_gym :
    ∃ db', generations 1 [738060, 738060] gymLedger = .ok db' ∧ rowsOn db' 1 (some 1) 738000 = 1 ∧
      rowsOn db' 1 (some 1) 738031 = 1 := by
  refine ⟨_, rfl, ?_, ?_⟩
  · rw [((generation_writes_occurrences 2 (show generations 1 (List.replicate 2 738060) gymLedger = .ok _ from rfl)).1 1 _
      rfl rfl rfl).2 738000]
    decide
  · rw [((generation_writes_occurrences 2 (show generations 1 (List.replicate 2 738060) gymLedger = .ok _ from rfl)).1 1 _
      rfl rfl rfl).2 738031]
    decide

/-! ## A promoted row -/

/-- Runs at any clocks pass dates one after the other. -/
theorem generations_pass {todays : List Int} {i : Nat} (h : generations orgId todays db = .ok db')
    (hr : db.recurring.get? i = some r) (horg : r.orgId = orgId) (hactive : r.isActive = true) :
    ∃ ds, SeriesRun orgId i r ds db db' := by
  induction todays generalizing db r with
  | nil =>
    obtain rfl : db = db' := Except.ok.inj h
    exact ⟨[], seriesRun_of_same hr fun _ => rfl⟩
  | cons today todays ih =>
    obtain ⟨mid, result, hfirst, hrest⟩ := generations_cons h
    have hrun := (generateDueTransactions_series hfirst).1 i r hr horg hactive
    obtain ⟨-, hsorg, hsactive, -⟩ := stepped_same
      (walkedDates (generationEnd db orgId today) maxCatchupIterations r).length r
    obtain ⟨ds, hds⟩ := ih hrest hrun.template (hsorg.trans horg) (hsactive.trans hactive)
    exact ⟨_, hrun.trans hds⟩

theorem count_seriesDates (db : Db) (orgId i : Nat) (d : Int) :
    (seriesDates db orgId i).count d = rowsOn db orgId (some i) d := by
  unfold seriesDates rowsOn
  rw [List.count_eq_countP, List.countP_map, Table.select, Table.select, List.countP_eq_length_filter,
    List.filter_filter]
  congr 1
  refine List.filter_congr fun p _ => ?_
  simp only [Function.comp_apply]
  exact Bool.and_comm _ _

/-- The template a promotion makes of a row. -/
def promotedTemplate (orgId : Nat) (tx : Transaction) (body : PromoteToRecurringRequest) : RecurringTransaction :=
  { orgId, accountId := tx.accountId, categoryId := tx.categoryId, description := tx.description
    amount := tx.amount, type := tx.type, frequency := body.frequency
    nextDueDate := body.nextDueDate, autoSettle := body.autoSettle
    occurrenceCount := body.occurrenceCount.map (·.val)
    occurrencesElapsed := if tx.date < body.nextDueDate then 1 else 0
    lastSpentDate := if tx.date < body.nextDueDate then some tx.date else none }

theorem promoteToRecurring_ok {id : Nat} {body : PromoteToRecurringRequest}
    (h : promoteToRecurring db today orgId id body = .ok db') :
    ∃ tx, db.transactions.get? id = some tx ∧ tx.orgId = orgId ∧
      db' = editTransaction (insertRecurring db (promotedTemplate orgId tx body)) id
        (fun t => { t with recurringId := some db.recurring.next }) := by
  obtain ⟨-, -, h⟩ := bind_eq_ok.mp h
  obtain ⟨tx, htx, h⟩ := bind_eq_ok.mp h
  obtain ⟨-, -, h⟩ := bind_eq_ok.mp h
  obtain ⟨-, -, h⟩ := bind_eq_ok.mp h
  obtain ⟨-, -, h⟩ := bind_eq_ok.mp h
  obtain ⟨-, -, h⟩ := bind_eq_ok.mp h
  obtain ⟨hget, horg⟩ := findTransaction_eq_some.mp (found_eq_ok.mp htx)
  refine ⟨tx, hget, horg, ?_⟩
  rw [← Except.ok.inj h]
  unfold promotedTemplate
  simp only [decide_eq_true_eq]

/-- Right after the promotion the series has the promoted row and no other. -/
theorem rowsOn_promoted {id : Nat} {tx : Transaction}
    (hfk : ∀ j t, db.transactions.get? j = some t → ∀ k ∈ t.recurringId, k < db.recurring.next)
    (htx : db.transactions.get? id = some tx) (horg : tx.orgId = orgId) (d : Int) :
    rowsOn (editTransaction (insertRecurring db r) id (fun t => { t with recurringId := some db.recurring.next })) orgId
      (some db.recurring.next) d = if d = tx.date then 1 else 0 := by
  unfold rowsOn
  rw [← Int.natCast_inj, Table.length_select]
  have hcount : ∀ j t, db.transactions.get? j = some t →
      ((if j = id then { t with recurringId := some db.recurring.next } else t).orgId = orgId ∧
        (if j = id then { t with recurringId := some db.recurring.next } else t).recurringId = some db.recurring.next ∧
          (if j = id then { t with recurringId := some db.recurring.next } else t).date = d ↔ j = id ∧ d = tx.date) := by
    intro j t ht
    by_cases hj : j = id
    · subst hj
      obtain rfl : tx = t := by rw [htx] at ht; exact Option.some.inj ht
      rw [if_pos rfl]
      exact ⟨fun hall => ⟨rfl, hall.2.2.symm⟩, fun hall => ⟨horg, rfl, hall.2.symm⟩⟩
    · rw [if_neg hj]
      refine ⟨fun hall => ?_, fun hall => absurd hall.1 hj⟩
      have := hfk j t ht _ hall.2.1
      omega
  unfold editTransaction insertRecurring
  dsimp only
  rw [Table.modify, Table.total_mapRows]
  refine (Table.total_congr fun j t ht => ?_).trans (Table.total_single htx (if d = tx.date then (1 : Int) else 0)) |>.trans ?_
  · simp only [Bool.and_eq_true, beq_iff_eq, and_assoc]
    rw [if_congr (hcount j t ht) rfl rfl]
    by_cases hj : j = id
    · rw [if_pos hj]
      exact if_congr (and_iff_right hj) rfl rfl
    · rw [if_neg hj, if_neg fun hall => hj hall.1]
  · split <;> rfl

/-- **A promoted plan of `n` instalments ends with `n` rows, the promoted one among them**, on as
many dates; and with one more only where the frontier was put on or before the promoted row
and the row lies off the plan's own dates. -/
theorem promoted_plan_delivers {id : Nat} {body : PromoteToRecurringRequest} {tx : Transaction} {mid : Db}
    {n : OccurrenceCount} {todays : List Int}
    (hfk : ∀ j t, db.transactions.get? j = some t → ∀ k ∈ t.recurringId, k < db.recurring.next)
    (hpromote : promoteToRecurring db today orgId id body = .ok mid) (htx : db.transactions.get? id = some tx)
    (htype : tx.type ≠ .transfer) (hcount : body.occurrenceCount = some n)
    (h : generations orgId todays mid = .ok db')
    (hdone : ∀ r, db'.recurring.get? db.recurring.next = some r → hasRemainingOccurrences r = false) :
    (seriesDates db' orgId db.recurring.next).Nodup ∧
      ((seriesDates db' orgId db.recurring.next).length : Int) = n.val +
        if body.nextDueDate ≤ tx.date ∧ tx.date ∉ spendDates n.val.toNat (promotedTemplate orgId tx body) then 1 else 0 := by
  obtain ⟨tx', htx', horg, rfl⟩ := promoteToRecurring_ok hpromote
  obtain rfl : tx = tx' := by rw [htx] at htx'; exact Option.some.inj htx'
  have hr : (editTransaction (insertRecurring db (promotedTemplate orgId tx body)) id
      (fun t => { t with recurringId := some db.recurring.next })).recurring.get? db.recurring.next =
        some (promotedTemplate orgId tx body) := by
    show (db.recurring.insert _).get? _ = _
    rw [Table.get?_insert, if_pos rfl]
  obtain ⟨ds, hrun⟩ := generations_pass h hr rfl rfl
  have hremaining : remainingOccurrences (promotedTemplate orgId tx body) =
      some (n.val - if tx.date < body.nextDueDate then 1 else 0) := by
    unfold remainingOccurrences promotedTemplate
    rw [hcount]
    rfl
  have hpos : 0 < n.val := n.property.1
  -- exhausted, so every instalment it had was passed
  have hlength : (ds.length : Int) = n.val - if tx.date < body.nextDueDate then 1 else 0 := by
    have hwithin := hrun.within _ hremaining
    have hexhausted := hdone _ hrun.template
    unfold hasRemainingOccurrences at hexhausted
    rw [remainingOccurrences_stepped, hremaining] at hexhausted
    have hle : ¬ 0 < (n.val - if tx.date < body.nextDueDate then 1 else 0) - (ds.length : Int) :=
      of_decide_eq_false hexhausted
    split at hwithin <;> rename_i hahead
    · rw [if_pos hahead] at hle ⊢
      omega
    · rw [if_neg hahead] at hle ⊢
      omega
  have hlegs : legsOf (promotedTemplate orgId tx body) = 1 := if_neg htype
  obtain ⟨hsorted, hfrom⟩ := spendDates_sorted ds.length (promotedTemplate orgId tx body)
  rw [← hrun.dates] at hsorted hfrom
  have hnodup : ds.Nodup := hsorted.imp Int.ne_of_lt
  -- a row was put on every date passed but the promoted row's own
  have hperm : (seriesDates db' orgId db.recurring.next).Perm (if tx.date ∈ ds then ds else tx.date :: ds) := by
    refine List.perm_iff_count.mpr fun d => ?_
    rw [count_seriesDates, hrun.rows, rowsOn_promoted hfk htx horg, hlegs]
    by_cases hmem : tx.date ∈ ds
    · rw [if_pos hmem, hnodup.count]
      by_cases hd : d = tx.date
      · subst hd
        rw [if_pos rfl, if_neg fun hall => absurd hall.2 Nat.one_ne_zero, if_pos hmem]
      · rw [if_neg hd, Nat.zero_add]
        exact if_congr (and_iff_left rfl) rfl rfl
    · rw [if_neg hmem, List.count_cons, hnodup.count]
      by_cases hd : d = tx.date
      · subst hd
        rw [if_pos rfl, if_neg fun hall => absurd hall.2 Nat.one_ne_zero, if_neg hmem, if_pos (beq_self_eq_true _)]
      · rw [if_neg hd, Nat.zero_add, if_neg (c := (tx.date == d) = true) (by simpa using Ne.symm hd), Nat.add_zero]
        exact if_congr (and_iff_left rfl) rfl rfl
  have hnodup' : (if tx.date ∈ ds then ds else tx.date :: ds).Nodup := by
    split
    · exact hnodup
    · exact List.nodup_cons.mpr ⟨‹_›, hnodup⟩
  refine ⟨hperm.nodup_iff.mpr hnodup', ?_⟩
  rw [hperm.length_eq]
  by_cases hahead : tx.date < body.nextDueDate
  · -- the promoted row is instalment one, before every date of the plan
    have hnot : tx.date ∉ ds := by
      intro hmem
      have hge : body.nextDueDate ≤ tx.date := hfrom _ hmem
      omega
    rw [if_pos hahead] at hlength
    rw [if_neg hnot, if_neg fun hall => absurd hall.1 (by omega), List.length_cons]
    push_cast
    omega
  · -- the promoted row is no instalment; it counts as one where the plan meets its date
    rw [if_neg hahead] at hlength
    have hdates : ds = spendDates n.val.toNat (promotedTemplate orgId tx body) := by
      rw [hrun.dates]
      congr 1
      omega
    rw [← hdates]
    by_cases hmem : tx.date ∈ ds
    · rw [if_pos hmem, if_neg fun hall => hall.2 hmem]
      omega
    · rw [if_neg hmem, if_pos ⟨by omega, hmem⟩, List.length_cons]
      push_cast
      omega

/-- A row, the ledger with it alone, and the plan of three it is promoted to. -/
def gymVisit : Transaction :=
  { orgId := 1, accountId := 1, categoryId := 1, description := "Gym", amount := ⟨2500, gym_amount_pos⟩, type := .expense
    date := 738000 }

def gymRow : Db :=
  { gymLedger with
    recurring := .empty
    transactions := Table.empty.insert gymVisit }

theorem three_instalments : (0 : Int) < 3 ∧ (3 : Int) ≤ 1200 := by decide

def gymPlan : PromoteToRecurringRequest where
  frequency := .monthly
  nextDueDate := 738031
  occurrenceCount := some ⟨3, three_instalments⟩

def gymPromoted : Db :=
  editTransaction (insertRecurring gymRow (promotedTemplate 1 gymVisit gymPlan)) 1 (fun t => { t with recurringId := some 1 })

theorem promoted_plan_delivers_gym :
    ∃ db', generations 1 [738060, 738100] gymPromoted = .ok db' ∧ (seriesDates db' 1 1).Nodup ∧
      ((seriesDates db' 1 1).length : Int) = 3 := by
  have hpromote : promoteToRecurring gymRow 738010 1 1 gymPlan = .ok gymPromoted := rfl
  obtain ⟨db', h, hdone⟩ : ∃ db', generations 1 [738060, 738100] gymPromoted = .ok db' ∧
      (db'.recurring.get? 1).all (fun r => !hasRemainingOccurrences r) = true := ⟨_, rfl, rfl⟩
  refine ⟨db', h, promoted_plan_delivers ?_ hpromote rfl ?_ rfl h ?_⟩
  · intro j t ht k hk
    have hmem : (j, t) ∈ gymRow.transactions.rows := Table.mem_rows.mpr ht
    rw [(Prod.mk.inj (List.mem_singleton.mp hmem)).2] at hk
    cases hk
  · decide
  · intro r hr
    rw [show db'.recurring.get? 1 = some r from hr, Option.all_some, Bool.not_eq_true'] at hdone
    exact hdone

end BetterDecision
