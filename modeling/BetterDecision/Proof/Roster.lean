import BetterDecision.Model.Billing

/-!
# The roster is a tiling

`Sound` is the statement: unique starts, no row ending before it starts, one open
row, and windows that do not meet, where the open row's window is derived from
the row that follows it.

`Tiled` is the form the proofs use. It names the open row and speaks only of the
columns: a row other than the open one has an end, two such rows lie apart, and
each of them ends before the open row starts or starts after it does. `sound_iff`
says the two are the same, so that a writer is checked against `Tiled` and
reported as `Sound`.

There are two writers. `tiled_commitClose` is the close, `tiled_insertPeriod` the
stub.
-/

namespace BetterDecision

open Calendar

/-- `p` is a row of the org, under `i`. -/
def PeriodRow (db : Db) (orgId i : Nat) (p : BillingPeriod) : Prop :=
  db.billingPeriods.get? i = some p ∧ p.orgId = orgId

/-- `day` lies in the window of `p`. -/
def InWindow (db : Db) (orgId : Nat) (p : BillingPeriod) (day : Int) : Prop :=
  p.startDate ≤ day ∧ ∀ e, periodEffectiveEnd db orgId p = some e → day ≤ e

/-- A roster whose windows tile: what `close_period` must keep. -/
structure Sound (db : Db) (orgId : Nat) : Prop where
  /-- No two rows start on one day. -/
  unique : ∀ i j p q, PeriodRow db orgId i p → PeriodRow db orgId j q → p.startDate = q.startDate → i = j
  /-- No closed row ends before it starts. -/
  ordered : ∀ i p e, PeriodRow db orgId i p → p.endDate = some e → p.startDate ≤ e
  /-- Some row is open. -/
  open_exists : ∃ i p, PeriodRow db orgId i p ∧ p.endDate = none
  /-- Only one is. -/
  open_unique : ∀ i j p q, PeriodRow db orgId i p → PeriodRow db orgId j q →
    p.endDate = none → q.endDate = none → i = j
  /-- No day lies in two windows. -/
  disjoint : ∀ i j p q day, PeriodRow db orgId i p → PeriodRow db orgId j q →
    InWindow db orgId p day → InWindow db orgId q day → i = j

/-- The same, seen from the open row `op` under `o`. -/
structure Tiled (db : Db) (orgId o : Nat) (op : BillingPeriod) : Prop where
  row : PeriodRow db orgId o op
  isOpen : op.endDate = none
  /-- Every other row is closed, after it starts. -/
  closed : ∀ i p, PeriodRow db orgId i p → i ≠ o → ∃ e, p.endDate = some e ∧ p.startDate ≤ e
  /-- Two closed rows lie apart. -/
  apart : ∀ i j p q e f, PeriodRow db orgId i p → PeriodRow db orgId j q → i ≠ j →
    p.endDate = some e → q.endDate = some f → e < q.startDate ∨ f < p.startDate
  /-- A closed row is over before the open one starts, or starts after it. -/
  clear : ∀ i p e, PeriodRow db orgId i p → p.endDate = some e →
    e < op.startDate ∨ op.startDate < p.startDate

/-! ## Reading the roster -/

theorem mem_periodsOf {db : Db} {orgId i : Nat} {p : BillingPeriod} :
    (i, p) ∈ periodsOf db orgId ↔ PeriodRow db orgId i p := by
  simp [periodsOf, PeriodRow]

theorem periodAt_some {db : Db} {orgId i : Nat} {s : Int} {p : BillingPeriod}
    (h : periodAt db orgId s = some (i, p)) : PeriodRow db orgId i p ∧ p.startDate = s := by
  refine ⟨mem_periodsOf.mp (List.mem_of_find?_eq_some h), ?_⟩
  simpa using List.find?_some h

theorem periodAt_eq_none {db : Db} {orgId : Nat} {s : Int} :
    periodAt db orgId s = none ↔ ∀ i p, PeriodRow db orgId i p → p.startDate ≠ s := by
  rw [periodAt, List.find?_eq_none]
  constructor
  · intro h i p hp
    simpa using h (i, p) (mem_periodsOf.mpr hp)
  · rintro h ⟨i, p⟩ hp
    simpa using h i p (mem_periodsOf.mp hp)

theorem nextPeriodStart_eq_none {db : Db} {orgId : Nat} {after : Int} :
    nextPeriodStart db orgId after = none ↔ ∀ i p, PeriodRow db orgId i p → p.startDate ≤ after := by
  rw [nextPeriodStart, List.min?_eq_none_iff, List.filter_eq_nil_iff]
  constructor
  · intro h i p hp
    have := h _ (List.mem_map_of_mem (mem_periodsOf.mpr hp))
    simpa using this
  · intro h s hs
    obtain ⟨⟨i, p⟩, hp, rfl⟩ := List.mem_map.mp hs
    simpa using h i p (mem_periodsOf.mp hp)

theorem nextPeriodStart_eq_some {db : Db} {orgId : Nat} {after s : Int} :
    nextPeriodStart db orgId after = some s ↔
      after < s ∧ (∃ i p, PeriodRow db orgId i p ∧ p.startDate = s) ∧
        ∀ i p, PeriodRow db orgId i p → after < p.startDate → s ≤ p.startDate := by
  rw [nextPeriodStart, List.min?_eq_some_iff]
  constructor
  · rintro ⟨hmem, hle⟩
    obtain ⟨hmap, hlt⟩ := List.mem_filter.mp hmem
    obtain ⟨⟨i, p⟩, hp, rfl⟩ := List.mem_map.mp hmap
    refine ⟨by simpa using hlt, ⟨i, p, mem_periodsOf.mp hp, rfl⟩, ?_⟩
    intro j q hq hlt'
    exact hle _ (List.mem_filter.mpr ⟨List.mem_map_of_mem (mem_periodsOf.mpr hq), by simpa using hlt'⟩)
  · rintro ⟨hlt, ⟨i, p, hp, rfl⟩, hle⟩
    refine ⟨List.mem_filter.mpr ⟨List.mem_map_of_mem (mem_periodsOf.mpr hp), by simpa using hlt⟩, ?_⟩
    intro t ht
    obtain ⟨hmap, hlt'⟩ := List.mem_filter.mp ht
    obtain ⟨⟨j, q⟩, hq, rfl⟩ := List.mem_map.mp hmap
    exact hle j q (mem_periodsOf.mp hq) (by simpa using hlt')

/-- **With one open row, `get_current_period` reads it and writes nothing.** -/
theorem Tiled.getCurrentPeriod {db : Db} {orgId o : Nat} {op : BillingPeriod}
    (h : Tiled db orgId o op) (today : Int) : getCurrentPeriod db orgId today = (db, o, op) := by
  have hmem : ∀ r, r ∈ openPeriods db orgId ↔ PeriodRow db orgId r.1 r.2 ∧ r.2.endDate = none := by
    intro r
    rw [openPeriods, List.mem_insertionSort, List.mem_filter, ← mem_periodsOf]
    simp
  unfold BetterDecision.getCurrentPeriod
  rcases ho : openPeriods db orgId with _ | ⟨r, rs⟩
  · have := (hmem (o, op)).mpr ⟨h.row, h.isOpen⟩
    rw [ho] at this
    cases this
  · obtain ⟨hr, hopen⟩ := (hmem r).mp (ho ▸ List.mem_cons_self)
    have hid : r.1 = o := by
      by_contra hne
      obtain ⟨e, he, -⟩ := h.closed _ _ hr hne
      rw [hopen] at he
      cases he
    have hrow : r.2 = op := by
      have := hr.1
      rw [hid, h.row.1] at this
      exact (Option.some.inj this).symm
    simp only [← hid, ← hrow]

/-! ## `Sound` is `Tiled` -/

/-- The open row's derived window ends before the next row starts. -/
theorem inWindow_open {db : Db} {orgId : Nat} {op : BillingPeriod} (hopen : op.endDate = none)
    (day : Int) : InWindow db orgId op day ↔ op.startDate ≤ day ∧
      ∀ i p, PeriodRow db orgId i p → op.startDate < p.startDate → day < p.startDate := by
  unfold InWindow periodEffectiveEnd
  rw [hopen]
  refine and_congr_right fun hle => ?_
  rcases hs : nextPeriodStart db orgId op.startDate with _ | s0
  · have hnone := nextPeriodStart_eq_none.mp hs
    simp only [Option.map_none, reduceCtorEq, false_implies, implies_true, true_iff]
    intro i p hp hlt
    exact absurd (hnone i p hp) (by omega)
  · obtain ⟨-, ⟨i, p, hp, rfl⟩, hmin⟩ := nextPeriodStart_eq_some.mp hs
    simp only [Option.map_some, Option.some.injEq, forall_eq']
    constructor
    · intro hday j q hq hlt
      have := hmin j q hq hlt
      omega
    · intro hday
      have := hday i p hp (nextPeriodStart_eq_some.mp hs).1
      omega

theorem inWindow_closed {db : Db} {orgId : Nat} {p : BillingPeriod} {e day : Int}
    (he : p.endDate = some e) : InWindow db orgId p day ↔ p.startDate ≤ day ∧ day ≤ e := by
  simp [InWindow, periodEffectiveEnd, he]

theorem Sound.tiled {db : Db} {orgId : Nat} (h : Sound db orgId) :
    ∃ o op, Tiled db orgId o op := by
  obtain ⟨o, op, hrow, hopen⟩ := h.open_exists
  have hend : ∀ i p, PeriodRow db orgId i p → i ≠ o → ∃ e, p.endDate = some e := by
    intro i p hp hne
    rcases he : p.endDate with _ | e
    · exact absurd (h.open_unique i o p op hp hrow he hopen) hne
    · exact ⟨e, rfl⟩
  refine ⟨o, op, hrow, hopen, ?_, ?_, ?_⟩
  · intro i p hp hne
    obtain ⟨e, he⟩ := hend i p hp hne
    exact ⟨e, he, h.ordered i p e hp he⟩
  · intro i j p q e f hp hq hne he hf
    by_contra hcon
    push Not at hcon
    have hpe := h.ordered i p e hp he
    have hqf := h.ordered j q f hq hf
    -- the later of the two starts lies in both windows
    refine hne (h.disjoint i j p q (max p.startDate q.startDate) hp hq ?_ ?_)
    · exact (inWindow_closed he).mpr ⟨by omega, by omega⟩
    · exact (inWindow_closed hf).mpr ⟨by omega, by omega⟩
  · intro i p e hp he
    by_contra hcon
    push Not at hcon
    have hne : i ≠ o := by
      rintro rfl
      have := hp.1.symm.trans hrow.1
      rw [Option.some.inj this, hopen] at he
      cases he
    -- otherwise the open row's first day lies in both windows
    refine hne (h.disjoint i o p op op.startDate hp hrow ?_ ?_)
    · exact (inWindow_closed he).mpr ⟨by omega, by omega⟩
    · exact (inWindow_open hopen _).mpr ⟨le_rfl, fun _ _ _ hlt => hlt⟩

theorem Tiled.sound {db : Db} {orgId o : Nat} {op : BillingPeriod} (h : Tiled db orgId o op) :
    Sound db orgId := by
  have hcase : ∀ i p, PeriodRow db orgId i p →
      (i = o ∧ p = op) ∨ (i ≠ o ∧ ∃ e, p.endDate = some e ∧ p.startDate ≤ e) := by
    intro i p hp
    by_cases hi : i = o
    · subst hi
      exact .inl ⟨rfl, Option.some.inj (hp.1.symm.trans h.row.1)⟩
    · exact .inr ⟨hi, h.closed i p hp hi⟩
  refine ⟨?_, ?_, ⟨o, op, h.row, h.isOpen⟩, ?_, ?_⟩
  · intro i j p q hp hq hst
    by_contra hne
    rcases hcase i p hp with ⟨rfl, rfl⟩ | ⟨-, e, he, hpe⟩
    · rcases hcase j q hq with ⟨rfl, rfl⟩ | ⟨-, f, hf, hqf⟩
      · exact hne rfl
      · have := h.clear j q f hq hf
        omega
    · rcases hcase j q hq with ⟨rfl, rfl⟩ | ⟨-, f, hf, hqf⟩
      · have := h.clear i p e hp he
        omega
      · have := h.apart i j p q e f hp hq hne he hf
        omega
  · intro i p e hp he
    rcases hcase i p hp with ⟨rfl, rfl⟩ | ⟨-, e', he', hle⟩
    · rw [h.isOpen] at he
      cases he
    · obtain rfl := Option.some.inj (he.symm.trans he')
      exact hle
  · intro i j p q hp hq hpo hqo
    rcases hcase i p hp with ⟨rfl, -⟩ | ⟨-, e, he, -⟩
    · rcases hcase j q hq with ⟨rfl, -⟩ | ⟨-, f, hf, -⟩
      · rfl
      · rw [hqo] at hf; cases hf
    · rw [hpo] at he; cases he
  · -- a day of a closed row is no day of the open one
    have hno : ∀ i p e day, PeriodRow db orgId i p → p.endDate = some e → p.startDate ≤ day → day ≤ e →
        ¬ InWindow db orgId op day := by
      intro i p e day hp he h1 h2 hin
      obtain ⟨h3, h4⟩ := (inWindow_open h.isOpen day).mp hin
      rcases h.clear i p e hp he with hlt | hlt
      · omega
      · have := h4 i p hp hlt
        omega
    intro i j p q day hp hq hpd hqd
    by_contra hne
    rcases hcase i p hp with ⟨rfl, rfl⟩ | ⟨-, e, he, hpe⟩
    · rcases hcase j q hq with ⟨rfl, rfl⟩ | ⟨-, f, hf, hqf⟩
      · exact hne rfl
      · obtain ⟨h1, h2⟩ := (inWindow_closed hf).mp hqd
        exact hno j q f day hq hf h1 h2 hpd
    · obtain ⟨h1, h2⟩ := (inWindow_closed he).mp hpd
      rcases hcase j q hq with ⟨rfl, rfl⟩ | ⟨-, f, hf, hqf⟩
      · exact hno i p e day hp he h1 h2 hqd
      · obtain ⟨h3, h4⟩ := (inWindow_closed hf).mp hqd
        have := h.apart i j p q e f hp hq hne he hf
        omega

/-- **A roster is sound exactly if it is tiled around some open row.** -/
theorem sound_iff {db : Db} {orgId : Nat} : Sound db orgId ↔ ∃ o op, Tiled db orgId o op :=
  ⟨Sound.tiled, fun ⟨_, _, h⟩ => h.sound⟩

/-- `Sound` as a check over the rows: some row `r` is open, and every other row is closed
after it starts, clear of `r`, and apart from the rest. -/
theorem sound_iff_rows {db : Db} {orgId : Nat} : Sound db orgId ↔
    ∃ r ∈ periodsOf db orgId, r.2.endDate = none ∧ ∀ p ∈ periodsOf db orgId, p.1 ≠ r.1 →
      ∃ e ∈ p.2.endDate, p.2.startDate ≤ e ∧ (e < r.2.startDate ∨ r.2.startDate < p.2.startDate) ∧
        ∀ q ∈ periodsOf db orgId, p.1 ≠ q.1 → ∀ f ∈ q.2.endDate,
          e < q.2.startDate ∨ f < p.2.startDate := by
  rw [sound_iff]
  constructor
  · rintro ⟨o, op, h⟩
    refine ⟨(o, op), mem_periodsOf.mpr h.row, h.isOpen, ?_⟩
    rintro ⟨i, p⟩ hp hne
    have hp := mem_periodsOf.mp hp
    obtain ⟨e, he, hle⟩ := h.closed i p hp hne
    refine ⟨e, he, hle, h.clear i p e hp he, ?_⟩
    rintro ⟨j, q⟩ hq hij f hf
    exact h.apart i j p q e f hp (mem_periodsOf.mp hq) hij he hf
  · rintro ⟨⟨o, op⟩, hrow, hopen, hrest⟩
    have hid : ∀ i p e, PeriodRow db orgId i p → p.endDate = some e → i ≠ o := by
      rintro i p e hp he rfl
      obtain rfl := Option.some.inj ((mem_periodsOf.mp hrow).1.symm.trans hp.1)
      exact absurd (hopen.symm.trans he) (by simp)
    refine ⟨o, op, mem_periodsOf.mp hrow, hopen, ?_, ?_, ?_⟩
    · intro i p hp hne
      obtain ⟨e, he, hle, -⟩ := hrest (i, p) (mem_periodsOf.mpr hp) hne
      exact ⟨e, he, hle⟩
    · intro i j p q e f hp hq hij he hf
      obtain ⟨e', he', -, -, hapart⟩ := hrest (i, p) (mem_periodsOf.mpr hp) (hid i p e hp he)
      obtain rfl := Option.some.inj (he.symm.trans he')
      exact hapart (j, q) (mem_periodsOf.mpr hq) hij f hf
    · intro i p e hp he
      obtain ⟨e', he', -, hclear, -⟩ := hrest (i, p) (mem_periodsOf.mpr hp) (hid i p e hp he)
      obtain rfl := Option.some.inj (he.symm.trans he')
      exact hclear

instance (db : Db) (orgId : Nat) : Decidable (Sound db orgId) :=
  decidable_of_iff _ sound_iff_rows.symm

/-- The row a close picks its date against is not swallowed, and the date is in the
period. -/
theorem resolveCloseDate_spec (db : Db) (orgId : Nat) {current : BillingPeriod} {requested : Int}
    (hle : current.startDate ≤ requested) :
    current.startDate ≤ resolveCloseDate db orgId current requested ∧
      resolveCloseDate db orgId current requested ≤ requested ∧
      (∀ i p, PeriodRow db orgId i p → current.startDate < p.startDate →
        resolveCloseDate db orgId current requested < p.startDate) := by
  unfold resolveCloseDate
  rcases hs : nextPeriodStart db orgId current.startDate with _ | s0
  · refine ⟨hle, le_rfl, fun i p hp hlt => absurd (nextPeriodStart_eq_none.mp hs i p hp) (by omega)⟩
  · obtain ⟨hlt, -, hmin⟩ := nextPeriodStart_eq_some.mp hs
    dsimp only
    split
    · refine ⟨by omega, by omega, fun i p hp h => ?_⟩
      have := hmin i p hp h
      omega
    · refine ⟨hle, le_rfl, fun i p hp h => ?_⟩
      have := hmin i p hp h
      omega

/-! ## What a close writes -/

/-- A budget anchored to `start` takes the end `newEnd`. -/
def reanchored (orgId : Nat) (start : Int) (newEnd : Option Int) (b : Budget) : Budget :=
  if BudgetAt orgId start b then { b with periodEnd := newEnd } else b

theorem budgetAt_reanchored {orgId : Nat} {s t : Int} {e : Option Int} {b : Budget} :
    BudgetAt orgId s (reanchored orgId t e b) ↔ BudgetAt orgId s b := by
  unfold reanchored
  split <;> exact Iff.rfl

theorem clashingCategories_self (db : Db) (orgId : Nat) (s : Int) :
    clashingCategories db orgId s s = [] := by
  have : db.budgets.select (fun _ b => decide (BudgetAt orgId s b) && b.periodStart != s &&
      ((db.budgets.select (fun _ b => decide (BudgetAt orgId s b))).map (·.2.categoryId)).contains
        b.categoryId) = [] := by
    rw [Table.select, List.filter_eq_nil_iff]
    rintro ⟨i, b⟩ -
    simp only [Bool.and_eq_true, decide_eq_true_eq, bne_iff_ne]
    rintro ⟨⟨⟨-, h1⟩, h2⟩, -⟩
    exact h2 h1
  unfold clashingCategories
  dsimp only
  rw [this]
  rfl

/-- **With the start left where it is, a re-anchor never refuses.** It sets the end of
every budget of the period. -/
theorem reanchor_self (db : Db) (orgId : Nat) (s : Int) (e : Option Int) :
    ∃ n, reanchorPeriodDependents db orgId s s e =
      .ok ({ db with budgets := db.budgets.mapRows (fun _ => reanchored orgId s e) }, n) := by
  unfold reanchorPeriodDependents
  dsimp only
  split
  · rename_i h
    -- nothing is stale: the budgets that would be written already carry the end
    refine ⟨0, ?_⟩
    rw [Table.mapRows_eq_self]
    intro i b hb
    have hstale := List.isEmpty_iff.mp h.2
    rw [Table.select, List.filter_eq_nil_iff] at hstale
    have := hstale (i, b) (Table.mem_rows.mpr hb)
    unfold reanchored
    split
    · rename_i hat
      obtain rfl : b.periodEnd = e := by simpa [hat] using this
      rfl
    · rfl
  · rw [clashingCategories_self]
    simp only [refuse, ne_eq, not_true_eq_false, if_false, bind, Except.bind, if_true]
    refine ⟨_, congrArg (fun t => Except.ok ({ db with budgets := t }, _)) ?_⟩
    refine congrArg _ (funext fun _ => funext fun b => ?_)
    unfold reanchored
    by_cases hat : BudgetAt orgId s b
    · by_cases he : b.periodEnd = e
      · subst he
        simp [hat]
      · simp [he, ← hat.2]
    · simp [hat]

theorem periodRow_setPeriodEnd {db : Db} {orgId id i : Nat} {e : Option Int} {p : BillingPeriod} :
    PeriodRow (setPeriodEnd db id e) orgId i p ↔
      ∃ q, PeriodRow db orgId i q ∧ p = if i = id then { q with endDate := e } else q := by
  simp only [PeriodRow, setPeriodEnd, Table.get?_modify_eq_some]
  constructor
  · rintro ⟨⟨q, hq, rfl⟩, horg⟩
    refine ⟨q, ⟨hq, ?_⟩, rfl⟩
    split at horg <;> exact horg
  · rintro ⟨q, ⟨hq, horg⟩, rfl⟩
    refine ⟨⟨q, hq, rfl⟩, ?_⟩
    split <;> exact horg

theorem periodRow_addPeriod {db : Db} {orgId i : Nat} {a p : BillingPeriod} (ha : a.orgId = orgId) :
    PeriodRow (addPeriod db a) orgId i p ↔
      PeriodRow db orgId i p ∨ (i = db.billingPeriods.next ∧ p = a) := by
  simp only [PeriodRow, addPeriod, Table.get?_insert]
  by_cases hi : i = db.billingPeriods.next
  · subst hi
    simp only [if_true, Option.some.injEq, Table.get?_next, reduceCtorEq, false_and, true_and, false_or]
    constructor
    · rintro ⟨rfl, -⟩
      rfl
    · rintro rfl
      exact ⟨rfl, ha⟩
  · simp [hi]

/-- What closing the row `op` under `o` on the day `r` has written, `o'` being the row
it opened. -/
structure Closed (db db' : Db) (orgId o : Nat) (op : BillingPeriod) (r : Int) (o' : Nat) : Prop where
  /-- No row is lost and no start moves. -/
  kept : ∀ i p, PeriodRow db orgId i p → ∃ p', PeriodRow db' orgId i p' ∧ p'.startDate = p.startDate
  /-- At most one row is new. -/
  new : ∀ i p, PeriodRow db' orgId i p → i = o' ∨ ∃ q, PeriodRow db orgId i q
  /-- The closed row ends on `r`. -/
  ended : PeriodRow db' orgId o { op with endDate := some r }
  /-- The new open row starts the day after. -/
  opened : ∃ p, PeriodRow db' orgId o' p ∧ p.startDate = r + 1 ∧ p.endDate = none
  /-- Every other row is as it was. -/
  others : ∀ i p, PeriodRow db orgId i p → i ≠ o → i ≠ o' → PeriodRow db' orgId i p
  /-- No budget is lost or moved. -/
  budgets : ∀ i b, db.budgets.get? i = some b →
    ∃ b', db'.budgets.get? i = some b' ∧ b'.orgId = b.orgId ∧ b'.periodStart = b.periodStart
  /-- Budgets of the closed row carry its end. -/
  closedBudgets : ∀ i b, db'.budgets.get? i = some b → BudgetAt orgId op.startDate b → b.periodEnd = some r
  /-- Budgets of a revived row carry none. -/
  revivedBudgets : ∀ q, PeriodRow db orgId o' q →
    ∀ i b, db'.budgets.get? i = some b → BudgetAt orgId (r + 1) b → b.periodEnd = none
  /-- The org itself is not written. -/
  organizations : db'.organizations = db.organizations

/-- Closing the open row on a day before every later row keeps the tiling. -/
theorem Tiled.close {db db' : Db} {orgId o o' : Nat} {op op' : BillingPeriod} {r : Int}
    (h : Tiled db orgId o op) (hr : op.startDate ≤ r)
    (hfree : ∀ i p, PeriodRow db orgId i p → op.startDate < p.startDate → r < p.startDate)
    (hne : o' ≠ o) (hnew : ∀ i p, PeriodRow db orgId i p → p.startDate = r + 1 → i = o')
    (hrow : PeriodRow db' orgId o' op') (hstart : op'.startDate = r + 1) (hopen : op'.endDate = none)
    (hrest : ∀ i p, PeriodRow db' orgId i p → i ≠ o' →
      ∃ q, PeriodRow db orgId i q ∧ p = if i = o then { q with endDate := some r } else q) :
    Tiled db' orgId o' op' := by
  -- a row other than the new one is the closed row, or was closed before
  have hcase : ∀ i p, PeriodRow db' orgId i p → i ≠ o' →
      (i = o ∧ p = { op with endDate := some r }) ∨ (i ≠ o ∧ PeriodRow db orgId i p) := by
    intro i p hp hi
    obtain ⟨q, hq, rfl⟩ := hrest i p hp hi
    by_cases hio : i = o
    · subst hio
      obtain rfl := Option.some.inj (h.row.1.symm.trans hq.1)
      exact .inl ⟨rfl, if_pos rfl⟩
    · rw [if_neg hio]
      exact .inr ⟨hio, hq⟩
  have hid : ∀ i p e, PeriodRow db' orgId i p → p.endDate = some e → i ≠ o' := by
    rintro i p e hp he rfl
    obtain rfl := Option.some.inj (hrow.1.symm.trans hp.1)
    rw [hopen] at he
    cases he
  refine ⟨hrow, hopen, ?_, ?_, ?_⟩
  · intro i p hp hi
    rcases hcase i p hp hi with ⟨-, rfl⟩ | ⟨hio, hp'⟩
    · exact ⟨r, rfl, hr⟩
    · exact h.closed i p hp' hio
  · -- the closed row ends before every row that starts after it
    have hvs : ∀ j q f, PeriodRow db orgId j q → q.endDate = some f →
        r < q.startDate ∨ f < op.startDate := by
      intro j q f hq hf
      rcases h.clear j q f hq hf with hlt | hlt
      · exact .inr hlt
      · exact .inl (hfree j q hq hlt)
    intro i j p q e f hp hq hij he hf
    rcases hcase i p hp (hid i p e hp he) with ⟨rfl, rfl⟩ | ⟨hio, hp'⟩
    · obtain rfl := Option.some.inj he
      rcases hcase j q hq (hid j q f hq hf) with ⟨rfl, -⟩ | ⟨-, hq'⟩
      · exact absurd rfl hij
      · exact hvs j q f hq' hf
    · rcases hcase j q hq (hid j q f hq hf) with ⟨rfl, rfl⟩ | ⟨-, hq'⟩
      · obtain rfl := Option.some.inj hf
        exact (hvs i p e hp' he).symm
      · exact h.apart i j p q e f hp' hq' hij he hf
  · intro i p e hp he
    have hi := hid i p e hp he
    rw [hstart]
    rcases hcase i p hp hi with ⟨-, rfl⟩ | ⟨-, hp'⟩
    · obtain rfl := Option.some.inj he
      exact .inl (by omega)
    · rcases h.clear i p e hp' he with hlt | hlt
      · exact .inl (by omega)
      · have := hfree i p hp' hlt
        have : p.startDate ≠ r + 1 := fun hs => hi (hnew i p hp' hs)
        exact .inr (by omega)

theorem reanchored_anchor {orgId : Nat} {s : Int} {e : Option Int} (b : Budget) :
    (reanchored orgId s e b).orgId = b.orgId ∧ (reanchored orgId s e b).periodStart = b.periodStart := by
  unfold reanchored
  split <;> exact ⟨rfl, rfl⟩

/-- The two re-anchors of a close, one after the other. -/
theorem reanchored_both {orgId : Nat} {s r : Int} {b : Budget} (hs : s ≤ r) :
    (BudgetAt orgId s b →
      (reanchored orgId (r + 1) none (reanchored orgId s (some r) b)).periodEnd = some r) ∧
    (BudgetAt orgId (r + 1) b →
      (reanchored orgId (r + 1) none (reanchored orgId s (some r) b)).periodEnd = none) := by
  constructor
  · intro hb
    have hnot : ¬ BudgetAt orgId (r + 1) (reanchored orgId s (some r) b) := by
      intro h
      have := (budgetAt_reanchored.mp h).2
      have := hb.2
      omega
    rw [reanchored, if_neg hnot, reanchored, if_pos hb]
  · intro hb
    rw [reanchored, if_pos (budgetAt_reanchored.mpr hb)]

/-- **The write of a close.** Either it goes through, and the roster is tiled around the
row it opened; or it meant to insert that row and somebody else has inserted one at the
same start. -/
theorem commitClose_spec {db : Db} {orgId o : Nat} {op : BillingPeriod} {r : Int} {existing : Option Nat}
    (h : Tiled db orgId o op) (hr : op.startDate ≤ r)
    (hfree : (existing = none ∧ ∃ i p, PeriodRow db orgId i p ∧ p.startDate = r + 1) ∨
      ∀ i p, PeriodRow db orgId i p → op.startDate < p.startDate → r < p.startDate)
    (hex : ∀ j, existing = some j → ∃ q, PeriodRow db orgId j q ∧ q.startDate = r + 1) :
    (∃ db' o' op', commitClose db orgId o op r existing = .ok (db', o') ∧ Tiled db' orgId o' op' ∧
      op'.startDate = r + 1 ∧ Closed db db' orgId o op r o') ∨
    (commitClose db orgId o op r existing = .error .integrity ∧ existing = none) := by
  obtain ⟨n, hre⟩ := reanchor_self db orgId op.startDate (some r)
  have hend : PeriodRow (setPeriodEnd db o (some r)) orgId o { op with endDate := some r } :=
    periodRow_setPeriodEnd.mpr ⟨op, h.row, by simp⟩
  unfold commitClose
  rw [hre]
  simp only [bind, Except.bind]
  cases existing with
  | some j =>
    left
    obtain ⟨q, hq, hqs⟩ := hex j rfl
    have hfree := hfree.resolve_left (by simp)
    have hjo : j ≠ o := by
      rintro rfl
      obtain rfl := Option.some.inj (h.row.1.symm.trans hq.1)
      omega
    obtain ⟨m, hre'⟩ := reanchor_self (setPeriodEnd (setPeriodEnd
      { db with budgets := db.budgets.mapRows (fun _ => reanchored orgId op.startDate (some r)) }
      o (some r)) j none) orgId (r + 1) none
    dsimp only
    rw [hre']
    simp only
    -- the rows afterwards: `o` ended, `j` reopened, the rest as before
    have hrows : ∀ i p, PeriodRow (setPeriodEnd (setPeriodEnd db o (some r)) j none) orgId i p ↔
        ∃ q, PeriodRow db orgId i q ∧ p = if i = j then { q with endDate := none }
          else if i = o then { q with endDate := some r } else q := by
      intro i p
      simp only [periodRow_setPeriodEnd]
      constructor
      · rintro ⟨q', ⟨q, hq, rfl⟩, rfl⟩
        refine ⟨q, hq, ?_⟩
        by_cases hij : i = j
        · rw [if_pos hij, if_pos hij]
          split <;> rfl
        · rw [if_neg hij, if_neg hij]
      · rintro ⟨q, hq, rfl⟩
        refine ⟨_, ⟨q, hq, rfl⟩, ?_⟩
        by_cases hij : i = j
        · rw [if_pos hij, if_pos hij]
          split <;> rfl
        · rw [if_neg hij, if_neg hij]
    have hopened : PeriodRow (setPeriodEnd (setPeriodEnd db o (some r)) j none) orgId j
        { q with endDate := none } := (hrows j _).mpr ⟨q, hq, by simp⟩
    have hjust : ∀ i p, PeriodRow db orgId i p → p.startDate = r + 1 → i = j := by
      intro i p hp hs
      exact h.sound.unique i j p q hp hq (hs.trans hqs.symm)
    refine ⟨_, j, { q with endDate := none }, rfl, ?_, hqs, ?_⟩
    · refine h.close hr hfree hjo hjust hopened hqs rfl ?_
      intro i p hp hij
      obtain ⟨q', hq', rfl⟩ := (hrows i p).mp hp
      exact ⟨q', hq', by rw [if_neg hij]⟩
    · refine ⟨?_, ?_, ?_, ⟨_, hopened, hqs, rfl⟩, ?_, ?_, ?_, ?_, rfl⟩
      · intro i p hp
        refine ⟨_, (hrows i _).mpr ⟨p, hp, rfl⟩, ?_⟩
        split
        · rfl
        · split <;> rfl
      · intro i p hp
        obtain ⟨q', hq', -⟩ := (hrows i p).mp hp
        exact .inr ⟨q', hq'⟩
      · exact (hrows o _).mpr ⟨op, h.row, by rw [if_neg hjo.symm, if_pos rfl]⟩
      · intro i p hp hio hij
        exact (hrows i p).mpr ⟨p, hp, by rw [if_neg hij, if_neg hio]⟩
      · intro i b hb
        simp only [setPeriodEnd, Table.get?_mapRows, hb, Option.map_some, Option.some.injEq,
          exists_eq_left']
        exact ⟨by simp only [reanchored_anchor], by simp only [reanchored_anchor]⟩
      · intro i b hb hat
        simp only [setPeriodEnd, Table.get?_mapRows, Option.map_map, Option.map_eq_some_iff] at hb
        obtain ⟨b0, -, rfl⟩ := hb
        exact (reanchored_both hr).1 (budgetAt_reanchored.mp (budgetAt_reanchored.mp hat))
      · intro q' hq' i b hb hat
        simp only [setPeriodEnd, Table.get?_mapRows, Option.map_map, Option.map_eq_some_iff] at hb
        obtain ⟨b0, -, rfl⟩ := hb
        exact (reanchored_both hr).2 (budgetAt_reanchored.mp (budgetAt_reanchored.mp hat))
  | none =>
    unfold insertPeriod
    rcases hp : periodAt (setPeriodEnd
      { db with budgets := db.budgets.mapRows (fun _ => reanchored orgId op.startDate (some r)) }
      o (some r)) orgId (r + 1) with _ | found
    · left
      have hnone : ∀ i p, PeriodRow db orgId i p → p.startDate ≠ r + 1 := by
        intro i p hrow hs
        refine periodAt_eq_none.mp hp i _ (periodRow_setPeriodEnd.mpr ⟨p, hrow, rfl⟩) ?_
        split <;> exact hs
      have hfree := hfree.resolve_left fun ⟨_, i, p, hrow, hs⟩ => hnone i p hrow hs
      have hrows : ∀ i p,
          PeriodRow (addPeriod (setPeriodEnd db o (some r)) { orgId, startDate := r + 1 }) orgId i p ↔
          PeriodRow (setPeriodEnd db o (some r)) orgId i p ∨
            (i = db.billingPeriods.next ∧ p = { orgId, startDate := r + 1 }) :=
        fun i p => periodRow_addPeriod rfl
      have hfresh : ∀ i p, PeriodRow db orgId i p → i ≠ db.billingPeriods.next :=
        fun i p hrow => (Table.get?_lt_next hrow.1).ne
      refine ⟨_, db.billingPeriods.next, { orgId, startDate := r + 1 }, rfl, ?_, rfl, ?_⟩
      · refine h.close hr hfree (hfresh o op h.row).symm
          (fun i p hrow hs => absurd hs (hnone i p hrow)) ((hrows _ _).mpr (.inr ⟨rfl, rfl⟩)) rfl rfl ?_
        intro i p hrow hi
        obtain hrow | ⟨rfl, -⟩ := (hrows i p).mp hrow
        · exact periodRow_setPeriodEnd.mp hrow
        · exact absurd rfl hi
      · refine ⟨?_, ?_, (hrows _ _).mpr (.inl hend), ⟨_, (hrows _ _).mpr (.inr ⟨rfl, rfl⟩), rfl, rfl⟩,
          ?_, ?_, ?_, ?_, rfl⟩
        · intro i p hrow
          refine ⟨_, (hrows i _).mpr (.inl (periodRow_setPeriodEnd.mpr ⟨p, hrow, rfl⟩)), ?_⟩
          split <;> rfl
        · intro i p hrow
          obtain hrow | ⟨rfl, -⟩ := (hrows i p).mp hrow
          · obtain ⟨q, hq, -⟩ := periodRow_setPeriodEnd.mp hrow
            exact .inr ⟨q, hq⟩
          · exact .inl rfl
        · intro i p hrow hio _
          exact (hrows i p).mpr (.inl (periodRow_setPeriodEnd.mpr ⟨p, hrow, by rw [if_neg hio]⟩))
        · intro i b hb
          simp only [addPeriod, setPeriodEnd, Table.get?_mapRows, hb, Option.map_some,
            Option.some.injEq, exists_eq_left']
          exact reanchored_anchor b
        · intro i b hb hat
          simp only [addPeriod, setPeriodEnd, Table.get?_mapRows, Option.map_eq_some_iff] at hb
          obtain ⟨b0, -, rfl⟩ := hb
          rw [reanchored, if_pos (budgetAt_reanchored.mp hat)]
        · intro q hq
          exact absurd rfl (hfresh _ q hq)
    · right
      exact ⟨rfl, rfl⟩

end BetterDecision
