import BetterDecision.Model.BudgetRollup
import BetterDecision.Proof.CategoryTree

/-!
# Budgets from a forecast are an exact roll-up

What is due is fixed by the plan and the budgets there were before any call. `RollupInv`:
the rows added since are rows that were due, each once and at its group's amount, no call
holds a key that is committed or another call's, and what is due is in a call's list, in its
flushed rows or committed. A call that returned has it committed.

The amounts are the only way a call fails by itself: one that does not fit its column.
-/

namespace BetterDecision

variable {db : Db} {orgId : Nat} {plan : ForecastPlan} {period : BillingPeriod}

/-! ## What is due -/

section Due

variable (db : Db) (orgId : Nat)

def parentOf (categoryId : Nat) : Option Nat := (findCategory db orgId categoryId).bind (·.parentId)

/-- A master and its subcategories. -/
def InGroup (master categoryId : Nat) : Prop := categoryId = master ∨ parentOf db orgId categoryId = some master

instance (master categoryId : Nat) : Decidable (InGroup db orgId master categoryId) :=
  inferInstanceAs (Decidable (_ ∨ _))

variable (plan : ForecastPlan) (period : BillingPeriod)

/-- The planned expenses of a master and its subcategories. -/
def groupItems (master : Nat) : List ForecastPlanItem :=
  plan.items.filter (fun i => i.type = .expense ∧ InGroup db orgId master i.categoryId)

def groupAmount (master : Nat) : Int := ((groupItems db orgId plan master).map (·.plannedAmount)).sum

/-- The budgets of the period on a master or a subcategory of it. -/
def groupBudgets (budgets : List Budget) (master : Nat) : List Budget :=
  budgets.filter (fun b => b.orgId = orgId ∧ b.periodStart = period.startDate ∧ InGroup db orgId master b.categoryId)

/-- A master with planned expenses and no budget. -/
structure Due (budgets : List Budget) (master : Nat) : Prop where
  isMaster : parentOf db orgId master = none
  planned : groupItems db orgId plan master ≠ []
  unbudgeted : groupBudgets db orgId period budgets master = []

/-- The budget a master is due. -/
def dueBudget (master : Nat) : Budget := newBudget orgId period master (groupAmount db orgId plan master)

/-- The budgets after, from those before: the ones that were due, each exactly once, and
nothing else. -/
structure RolledUp (before after : List Budget) : Prop where
  grown : ∃ added, after = before ++ added ∧
    ∀ b ∈ added, Due db orgId plan period before b.categoryId ∧ b = dueBudget db orgId plan period b.categoryId
  exact : ∀ master, Due db orgId plan period before master →
    groupBudgets db orgId period after master = [dueBudget db orgId plan period master]

end Due

/-- A subcategory's parent is no subcategory. -/
theorem parentOf_parent (hTree : TreeOk db.categories) {c p : Nat} (h : parentOf db orgId c = some p) :
    parentOf db orgId p = none := by
  obtain ⟨cat, hcat, hp⟩ := Option.bind_eq_some_iff.mp h
  obtain ⟨hget, horg⟩ := Option.filter_eq_some_iff.mp hcat
  obtain ⟨m, hm, -, hroot, -⟩ := hTree c cat p hget hp
  rw [parentOf, findCategory, hm, Option.filter]
  split
  · exact hroot
  · rfl

theorem masterOf_eq_iff (hTree : TreeOk db.categories) {c m : Nat} :
    masterOf db orgId c = m ↔ parentOf db orgId m = none ∧ InGroup db orgId m c := by
  rw [masterOf, ← parentOf]
  cases hp : parentOf db orgId c with
  | none =>
    constructor
    · rintro rfl
      exact ⟨hp, Or.inl rfl⟩
    · rintro ⟨-, rfl | hsub⟩
      · rfl
      · rw [hp] at hsub
        cases hsub
  | some p =>
    constructor
    · rintro rfl
      exact ⟨parentOf_parent hTree hp, Or.inr hp⟩
    · rintro ⟨hroot, rfl | hsub⟩
      · rw [hp] at hroot
        cases hroot
      · rw [hp] at hsub
        exact Option.some.inj hsub

/-- A master's group has no other master in it. -/
theorem inGroup_master {c m : Nat} (hc : parentOf db orgId c = none) : InGroup db orgId m c ↔ c = m := by
  rw [InGroup, hc]
  simp

theorem mem_budgetedMasters (hTree : TreeOk db.categories) {budgets : List Budget} {m : Nat}
    (hm : parentOf db orgId m = none) :
    m ∈ (existingBudgetCatIds orgId budgets period.startDate).map (masterOf db orgId) ↔
      groupBudgets db orgId period budgets m ≠ [] := by
  rw [existingBudgetCatIds, List.map_map, List.mem_map, groupBudgets, Ne, List.filter_eq_nil_iff, not_forall]
  constructor
  · rintro ⟨b, hb, hmaster⟩
    obtain ⟨hmem, hrow⟩ := List.mem_filter.mp hb
    have hrow := of_decide_eq_true hrow
    refine ⟨b, ?_⟩
    simp [hmem, hrow.1, hrow.2, ((masterOf_eq_iff hTree).mp hmaster).2]
  · rintro ⟨b, hb⟩
    simp only [Classical.not_imp, decide_eq_true_eq, not_not] at hb
    obtain ⟨hmem, horg, hstart, hgroup⟩ := hb
    exact ⟨b, List.mem_filter.mpr ⟨hmem, by simp [horg, hstart]⟩, (masterOf_eq_iff hTree).mpr ⟨hm, hgroup⟩⟩

/-- The items `forecast_budget_amounts` sums. -/
theorem mem_unbudgeted (hTree : TreeOk db.categories) {budgets : List Budget} {m : Nat} {i : ForecastPlanItem} :
    (i ∈ (plan.items.filter (fun i => i.type = .expense)).filter (fun i => masterOf db orgId i.categoryId ∉
        (existingBudgetCatIds orgId budgets period.startDate).map (masterOf db orgId)) ∧
      masterOf db orgId i.categoryId = m) ↔
    i ∈ groupItems db orgId plan m ∧ parentOf db orgId m = none ∧ groupBudgets db orgId period budgets m = [] := by
  simp only [groupItems, List.mem_filter, decide_eq_true_eq]
  constructor
  · rintro ⟨⟨⟨hmem, htype⟩, hfree⟩, rfl⟩
    obtain ⟨hroot, hgroup⟩ := (masterOf_eq_iff hTree).mp (rfl : masterOf db orgId i.categoryId = _)
    rw [mem_budgetedMasters hTree hroot, not_not] at hfree
    exact ⟨⟨hmem, htype, hgroup⟩, hroot, hfree⟩
  · rintro ⟨⟨hmem, htype, hgroup⟩, hroot, hnone⟩
    have hmaster := (masterOf_eq_iff hTree).mpr ⟨hroot, hgroup⟩
    rw [hmaster, mem_budgetedMasters hTree hroot, not_not]
    exact ⟨⟨⟨hmem, htype⟩, hnone⟩, rfl⟩

/-- **What is inserted: each master that is due, with its group's amount.** -/
theorem mem_forecastBudgetAmounts (hTree : TreeOk db.categories) {budgets : List Budget} {todo : List (Nat × Int)}
    (h : forecastBudgetAmounts db orgId (some plan) budgets period.startDate = .ok todo) {e : Nat × Int} :
    e ∈ todo ↔ Due db orgId plan period budgets e.1 ∧ e.2 = groupAmount db orgId plan e.1 := by
  obtain ⟨m, x⟩ := e
  rw [forecastBudgetAmounts] at h
  cases h
  rw [mem_totalsByKey]
  -- the amounts agree once the master has no budget
  have hsame : parentOf db orgId m = none → groupBudgets db orgId period budgets m = [] →
      sumAt (fun i => masterOf db orgId i.categoryId) (·.plannedAmount)
        ((plan.items.filter (fun i => i.type = .expense)).filter (fun i => masterOf db orgId i.categoryId ∉
          (existingBudgetCatIds orgId budgets period.startDate).map (masterOf db orgId))) m =
        groupAmount db orgId plan m := by
    intro hroot hnone
    rw [sumAt, groupAmount, groupItems, List.filter_filter, List.filter_filter]
    congr 2
    refine List.filter_congr fun i hi => ?_
    have hiff := @mem_unbudgeted db orgId plan period hTree budgets m i
    simp only [groupItems, List.mem_filter, hi, hroot, hnone, true_and, and_true, decide_eq_true_eq] at hiff
    rw [Bool.eq_iff_iff]
    simp only [Bool.and_eq_true, decide_eq_true_eq, beq_iff_eq]
    rw [← hiff]
    tauto
  constructor
  · rintro ⟨hm, hx⟩
    obtain ⟨i, hi, rfl⟩ := List.mem_map.mp hm
    obtain ⟨hitem, hroot, hnone⟩ := (mem_unbudgeted hTree).mp ⟨hi, rfl⟩
    exact ⟨⟨hroot, List.ne_nil_of_mem hitem, hnone⟩, by rw [hx, hsame hroot hnone]⟩
  · rintro ⟨⟨hroot, hplanned, hnone⟩, hx⟩
    obtain ⟨i, hi⟩ := List.exists_mem_of_ne_nil _ hplanned
    obtain ⟨hmem, hmaster⟩ := (mem_unbudgeted hTree).mpr ⟨hi, hroot, hnone⟩
    exact ⟨List.mem_map.mpr ⟨i, hmem, hmaster⟩, hx.trans (hsame hroot hnone).symm⟩

/-! ## The invariant -/

/-- A row the calls add. -/
def RolledRow (db : Db) (orgId : Nat) (plan : ForecastPlan) (period : BillingPeriod) (before : List Budget)
    (b : Budget) : Prop :=
  Due db orgId plan period before b.categoryId ∧ b = dueBudget db orgId plan period b.categoryId

/-- What a call has before it, given the rows added so far. -/
def PhaseOk (db : Db) (orgId : Nat) (plan : ForecastPlan) (period : BillingPeriod) (before added : List Budget) :
    RollupPhase → Prop
  | .inserting todo flushed =>
    (∀ e ∈ todo, Due db orgId plan period before e.1 ∧ e.2 = groupAmount db orgId plan e.1) ∧
    (∀ b ∈ flushed, RolledRow db orgId plan period before b ∧ b.categoryId ∉ added.map (·.categoryId)) ∧
    (flushed.map (·.categoryId)).Nodup ∧
    ∀ m, Due db orgId plan period before m →
      m ∈ todo.map Prod.fst ∨ m ∈ flushed.map (·.categoryId) ∨ m ∈ added.map (·.categoryId)
  | .returned => ∀ m, Due db orgId plan period before m → m ∈ added.map (·.categoryId)
  | .raised _ => ∃ m, Due db orgId plan period before m ∧ ¬ FitsColumn (groupAmount db orgId plan m)
  | .crashed => True

structure RollupInv (db : Db) (orgId : Nat) (plan : ForecastPlan) (period : BillingPeriod) (before : List Budget)
    (w : RollupWorld) (added : List Budget) : Prop where
  budgets : w.budgets = before ++ added
  rows : ∀ b ∈ added, RolledRow db orgId plan period before b
  once : (added.map (·.categoryId)).Nodup
  exclusive : w.calls.Exclusive RollupPhase.held
  call : ∀ i phase, w.calls.get? i = some phase → PhaseOk db orgId plan period before added phase

variable {before added : List Budget} {w w' : RollupWorld}

/-- A row added is in the group of its category only. -/
theorem RolledRow.mem_group {b : Budget} (h : RolledRow db orgId plan period before b) {m : Nat} :
    (b.orgId = orgId ∧ b.periodStart = period.startDate ∧ InGroup db orgId m b.categoryId) ↔ b.categoryId = m := by
  rw [inGroup_master h.1.isMaster]
  refine ⟨fun hb => hb.2.2, fun hb => ⟨?_, ?_, hb⟩⟩
  · rw [h.2]; rfl
  · rw [h.2]; rfl

theorem groupBudgets_added (hrows : ∀ b ∈ added, RolledRow db orgId plan period before b) (m : Nat) :
    groupBudgets db orgId period added m = added.filter (fun b => b.categoryId = m) := by
  rw [groupBudgets]
  exact List.filter_congr fun b hb => decide_eq_decide.mpr (hrows b hb).mem_group

/-- What is due when some rows are in: what was due, less those. -/
theorem due_append (hrows : ∀ b ∈ added, RolledRow db orgId plan period before b) {m : Nat} :
    Due db orgId plan period (before ++ added) m ↔
      Due db orgId plan period before m ∧ m ∉ added.map (·.categoryId) := by
  have hsplit : groupBudgets db orgId period (before ++ added) m = [] ↔
      groupBudgets db orgId period before m = [] ∧ m ∉ added.map (·.categoryId) := by
    have hadded := groupBudgets_added hrows m
    rw [groupBudgets] at hadded
    rw [groupBudgets, List.filter_append, List.append_eq_nil_iff, hadded, ← groupBudgets]
    refine and_congr_right fun _ => ?_
    simp [List.filter_eq_nil_iff]
  constructor
  · rintro ⟨hroot, hplanned, hnone⟩
    obtain ⟨hbefore, hm⟩ := hsplit.mp hnone
    exact ⟨⟨hroot, hplanned, hbefore⟩, hm⟩
  · rintro ⟨⟨hroot, hplanned, hbefore⟩, hm⟩
    exact ⟨hroot, hplanned, hsplit.mpr ⟨hbefore, hm⟩⟩

theorem rollupInv_init (before : List Budget) : RollupInv db orgId plan period before { budgets := before } [] where
  budgets := (List.append_nil before).symm
  rows := fun _ hb => by cases hb
  once := List.nodup_nil
  exclusive := Table.Exclusive.empty
  call := fun _ _ h => by cases h

/-- A call that goes to a phase in which it holds no more keys, nothing being committed. -/
theorem RollupInv.goto (h : RollupInv db orgId plan period before w added) {id : Nat} {phase phase' : RollupPhase}
    (hid : w.calls.get? id = some phase) (hok : PhaseOk db orgId plan period before added phase')
    (hheld : ∀ k ∈ phase'.held, k ∈ phase.held ∨ ¬ w.calls.HeldBy RollupPhase.held id (· = k)) :
    RollupInv db orgId plan period before (w.goto id phase') added where
  budgets := h.budgets
  rows := h.rows
  once := h.once
  exclusive := h.exclusive.modify hid hheld
  call j other hj := by
    rcases Table.get?_modify_cases hid hj with ⟨-, rfl⟩ | ⟨-, hj⟩
    · exact hok
    · exact h.call j other hj

theorem RollupInv.begin (hTree : TreeOk db.categories) (h : RollupInv db orgId plan period before w added) :
    RollupInv db orgId plan period before
      { w with calls := w.calls.insert (beginRollup db orgId (some plan) period w.budgets) } added where
  budgets := h.budgets
  rows := h.rows
  once := h.once
  exclusive := h.exclusive.insert rfl
  call j phase hj := by
    rcases Table.get?_insert_cases hj with ⟨-, rfl⟩ | ⟨-, hj⟩
    · cases htodo : forecastBudgetAmounts db orgId (some plan) w.budgets period.startDate with
      | error e => cases htodo
      | ok todo =>
        rw [beginRollup, htodo]
        rw [h.budgets] at htodo
        have hmem := fun e : Nat × Int => mem_forecastBudgetAmounts hTree htodo (e := e)
        refine ⟨fun e he => ?_, (fun b hb => by cases hb), List.nodup_nil, fun m hm => ?_⟩
        · obtain ⟨hdue, hx⟩ := (hmem e).mp he
          exact ⟨((due_append h.rows).mp hdue).1, hx⟩
        · by_cases hadded : m ∈ added.map (·.categoryId)
          · exact Or.inr (Or.inr hadded)
          · have hin := (hmem (m, groupAmount db orgId plan m)).mpr ⟨(due_append h.rows).mpr ⟨hm, hadded⟩, rfl⟩
            exact Or.inl (List.mem_map.mpr ⟨_, hin, rfl⟩)
    · exact h.call j phase hj

/-- A duplicate: the master's row is committed, or flushed by the call itself. -/
theorem hasBudget_iff {flushed : List Budget} {m : Nat} (hm : Due db orgId plan period before m)
    (hadded : ∀ b ∈ added, RolledRow db orgId plan period before b)
    (hflushed : ∀ b ∈ flushed, RolledRow db orgId plan period before b) :
    HasBudget orgId period (before ++ added ++ flushed) m ↔
      m ∈ added.map (·.categoryId) ∨ m ∈ flushed.map (·.categoryId) := by
  have hnew : ∀ b, RolledRow db orgId plan period before b → b.orgId = orgId ∧ b.periodStart = period.startDate :=
    fun b hb => ⟨by rw [hb.2]; rfl, by rw [hb.2]; rfl⟩
  constructor
  · rintro ⟨b, hb, horg, hcat, hstart⟩
    rcases List.mem_append.mp hb with hb | hb
    · rcases List.mem_append.mp hb with hb | hb
      · -- no row of before is on the master
        have hin : b ∈ groupBudgets db orgId period before m :=
          List.mem_filter.mpr ⟨hb, decide_eq_true ⟨horg, hstart, Or.inl hcat⟩⟩
        rw [hm.unbudgeted] at hin
        cases hin
      · exact Or.inl (List.mem_map.mpr ⟨b, hb, hcat⟩)
    · exact Or.inr (List.mem_map.mpr ⟨b, hb, hcat⟩)
  · rintro (h | h)
    · obtain ⟨b, hb, hcat⟩ := List.mem_map.mp h
      obtain ⟨horg, hstart⟩ := hnew b (hadded b hb)
      exact ⟨b, List.mem_append_left _ (List.mem_append_right _ hb), horg, hcat, hstart⟩
    · obtain ⟨b, hb, hcat⟩ := List.mem_map.mp h
      obtain ⟨horg, hstart⟩ := hnew b (hflushed b hb)
      exact ⟨b, List.mem_append_right _ hb, horg, hcat, hstart⟩

/-- One insert of a call. -/
theorem RollupInv.insert (h : RollupInv db orgId plan period before w added) {id masterId : Nat} {amount : Int}
    {todo : List (Nat × Int)} {flushed : List Budget}
    (hid : w.calls.get? id = some (.inserting ((masterId, amount) :: todo) flushed))
    (hstep : insertRow orgId period w id masterId amount todo flushed = .ok w') :
    RollupInv db orgId plan period before w' added := by
  obtain ⟨htodo, hflushed, hnodup, hcover⟩ := h.call id _ hid
  obtain ⟨⟨hdue, hamount⟩, htodo'⟩ := List.forall_mem_cons.mp htodo
  dsimp only at hdue hamount
  have hdup := hasBudget_iff hdue h.rows fun b hb => (hflushed b hb).1
  rw [insertRow] at hstep
  split at hstep
  · next hfits =>
    obtain rfl := Except.ok.inj hstep
    exact h.goto hid ⟨masterId, hdue, hamount ▸ hfits⟩ (fun k hk => by cases hk)
  · obtain ⟨_, hfree, hstep⟩ := bind_eq_ok.mp hstep
    have hfree := refuse_eq_ok.mp hfree
    rw [h.budgets] at hstep
    split at hstep
    · next hhas =>
      obtain rfl := Except.ok.inj hstep
      refine h.goto hid ⟨htodo', hflushed, hnodup, fun m hm => ?_⟩ (fun k hk => Or.inl hk)
      rcases hcover m hm with hm | hm
      · rcases List.mem_cons.mp hm with rfl | hm
        · exact Or.inr (hdup.mp hhas).symm
        · exact Or.inl hm
      · exact Or.inr hm
    · next hhas =>
      obtain rfl := Except.ok.inj hstep
      obtain ⟨hnotAdded, hnotFlushed⟩ := not_or.mp (hdup.not.mp hhas)
      refine h.goto hid ⟨htodo', fun b hb => ?_, ?_, fun m hm => ?_⟩ fun k hk => ?_
      · rcases List.mem_append.mp hb with hb | hb
        · exact hflushed b hb
        · rw [List.mem_singleton.mp hb]
          exact ⟨⟨hdue, by rw [hamount]; rfl⟩, hnotAdded⟩
      · rw [List.map_append, List.nodup_append]
        refine ⟨hnodup, List.nodup_singleton _, ?_⟩
        rintro _ hx y hy rfl
        exact hnotFlushed ((List.mem_singleton.mp hy : _ = masterId) ▸ hx)
      · rcases hcover m hm with hm | hm | hm
        · rcases List.mem_cons.mp hm with rfl | hm
          · exact Or.inr (Or.inl (by simp [newBudget]))
          · exact Or.inl hm
        · exact Or.inr (Or.inl (by rw [List.map_append]; exact List.mem_append_left _ hm))
        · exact Or.inr (Or.inr hm)
      · rw [RollupPhase.held, List.map_append, List.mem_append] at hk
        rcases hk with hk | hk
        · exact Or.inl hk
        · exact Or.inr (by rw [List.mem_singleton.mp hk]; exact hfree)

/-- More rows committed, which no other call holds. -/
theorem PhaseOk.more {flushed : List Budget} {phase : RollupPhase}
    (h : PhaseOk db orgId plan period before added phase)
    (hapart : ∀ k ∈ phase.held, k ∉ flushed.map (·.categoryId)) :
    PhaseOk db orgId plan period before (added ++ flushed) phase := by
  cases phase with
  | inserting todo own =>
    obtain ⟨htodo, hown, hnodup, hcover⟩ := h
    refine ⟨htodo, fun b hb => ⟨(hown b hb).1, ?_⟩, hnodup, fun m hm => ?_⟩
    · rw [List.map_append, List.mem_append, not_or]
      exact ⟨(hown b hb).2, hapart _ (List.mem_map.mpr ⟨b, hb, rfl⟩)⟩
    · rw [List.map_append, List.mem_append]
      rcases hcover m hm with hm | hm | hm
      · exact Or.inl hm
      · exact Or.inr (Or.inl hm)
      · exact Or.inr (Or.inr (Or.inl hm))
  | returned =>
    intro m hm
    rw [List.map_append]
    exact List.mem_append_left _ (h m hm)
  | raised error => exact h
  | crashed => trivial

theorem RollupInv.commit (h : RollupInv db orgId plan period before w added) {id : Nat} {flushed : List Budget}
    (hid : w.calls.get? id = some (.inserting [] flushed)) :
    RollupInv db orgId plan period before { (w.goto id .returned) with budgets := w.budgets ++ flushed }
      (added ++ flushed) where
  budgets := by
    dsimp only
    rw [h.budgets, List.append_assoc]
  rows b hb := by
    obtain ⟨-, hflushed, -, -⟩ := h.call id _ hid
    rcases List.mem_append.mp hb with hb | hb
    · exact h.rows b hb
    · exact (hflushed b hb).1
  once := by
    obtain ⟨-, hflushed, hnodup, -⟩ := h.call id _ hid
    rw [List.map_append, List.nodup_append]
    refine ⟨h.once, hnodup, ?_⟩
    rintro _ hx y hy rfl
    obtain ⟨b, hb, rfl⟩ := List.mem_map.mp hy
    exact (hflushed b hb).2 hx
  exclusive := h.exclusive.modify hid fun k hk => by cases hk
  call j phase hj := by
    obtain ⟨-, -, -, hcover⟩ := h.call id _ hid
    rcases Table.get?_modify_cases hid hj with ⟨-, rfl⟩ | ⟨hne, hj⟩
    · intro m hm
      rw [List.map_append, List.mem_append]
      rcases hcover m hm with hm | hm | hm
      · cases hm
      · exact Or.inr hm
      · exact Or.inl hm
    · refine (h.call j phase hj).more fun k hk hmem => hne ?_
      exact h.exclusive j id phase _ k hj hid hk hmem

/-- **A step keeps the invariant, with more rows added or not.** -/
theorem rollupInv_step (hTree : TreeOk db.categories) (h : RollupInv db orgId plan period before w added)
    {event : RollupEvent} (hstep : rollupStep db orgId (some plan) period w event = .ok w') :
    ∃ more, RollupInv db orgId plan period before w' (added ++ more) := by
  have same : RollupInv db orgId plan period before w' added →
      ∃ more, RollupInv db orgId plan period before w' (added ++ more) :=
    fun h' => ⟨[], by rw [List.append_nil]; exact h'⟩
  cases event with
  | begin =>
    obtain rfl := Except.ok.inj hstep
    exact same (h.begin hTree)
  | insert id =>
    rw [rollupStep] at hstep
    obtain ⟨phase, hid, hstep⟩ := bind_eq_ok.mp hstep
    have hid := found_eq_ok.mp hid
    split at hstep
    · exact same (h.insert hid hstep)
    · cases hstep
  | commit id =>
    rw [rollupStep] at hstep
    obtain ⟨phase, hid, hstep⟩ := bind_eq_ok.mp hstep
    have hid := found_eq_ok.mp hid
    split at hstep
    · obtain rfl := Except.ok.inj hstep
      exact ⟨_, h.commit hid⟩
    · cases hstep
  | crash id =>
    rw [rollupStep] at hstep
    obtain ⟨phase, hid, hstep⟩ := bind_eq_ok.mp hstep
    have hid := found_eq_ok.mp hid
    split at hstep
    · obtain rfl := Except.ok.inj hstep
      exact same (h.goto hid trivial fun k hk => by cases hk)
    · cases hstep

/-! ## Runs -/

/-- A call has run to its own end. -/
def AnyEnded (w : RollupWorld) : Prop := ∃ i phase, w.calls.get? i = some phase ∧ phase.Ended

theorem rollupInv_run (hTree : TreeOk db.categories) (h : RollupInv db orgId plan period before w added)
    (events : List RollupEvent) :
    ∃ more, RollupInv db orgId plan period before (run (rollupStep db orgId (some plan) period) w events)
      (added ++ more) := by
  refine run_invariant (I := fun w' => ∃ more, RollupInv db orgId plan period before w' (added ++ more)) ?_ events
    ⟨[], by rw [List.append_nil]; exact h⟩
  rintro s event s' ⟨more, hinv⟩ hstep
  obtain ⟨more', hinv'⟩ := rollupInv_step hTree hinv hstep
  exact ⟨more ++ more', by rw [← List.append_assoc]; exact hinv'⟩

/-- Once a call has ended, all that was due is in. -/
theorem RollupInv.all_in (h : RollupInv db orgId plan period before w added) (hended : AnyEnded w)
    (hfits : ∀ m, Due db orgId plan period before m → FitsColumn (groupAmount db orgId plan m)) :
    ∀ m, Due db orgId plan period before m → m ∈ added.map (·.categoryId) := by
  obtain ⟨i, phase, hi, hph⟩ := hended
  have hok := h.call i phase hi
  cases phase with
  | returned => exact hok
  | raised error =>
    obtain ⟨m, hm, hbig⟩ := hok
    exact absurd (hfits m hm) hbig
  | inserting todo flushed => cases hph
  | crashed => cases hph

theorem RollupInv.rolledUp (h : RollupInv db orgId plan period before w added)
    (hall : ∀ m, Due db orgId plan period before m → m ∈ added.map (·.categoryId)) :
    RolledUp db orgId plan period before w.budgets where
  grown := ⟨added, h.budgets, h.rows⟩
  exact m hm := by
    obtain ⟨b, hb, rfl⟩ := List.mem_map.mp (hall m hm)
    have hbefore := hm.unbudgeted
    rw [groupBudgets] at hbefore
    rw [h.budgets, groupBudgets, List.filter_append, hbefore, List.nil_append, ← groupBudgets,
      groupBudgets_added h.rows, ← (h.rows b hb).2]
    exact Keyed.filter_key h.once hb

/-- Nothing is left to add. -/
theorem RollupInv.closed {more : List Budget} (h : RollupInv db orgId plan period before w (added ++ more))
    (hall : ∀ m, Due db orgId plan period before m → m ∈ added.map (·.categoryId)) : more = [] := by
  rw [List.eq_nil_iff_forall_not_mem]
  intro b hb
  have hnodup := h.once
  rw [List.map_append, List.nodup_append] at hnodup
  have hdue := (h.rows b (List.mem_append_right _ hb)).1
  exact hnodup.2.2 _ (hall _ hdue) _ (List.mem_map.mpr ⟨b, hb, rfl⟩) rfl

/-! ## An amount that does not fit -/

theorem not_heldBy_alone {calls : Table RollupPhase} {id : Nat} (h : ∀ j, j ≠ id → calls.get? j = none)
    (kind : Nat → Prop) : ¬ calls.HeldBy RollupPhase.held id kind := by
  rintro ⟨q, hq, hne, -⟩
  have hget := Table.mem_rows.mp (show (q.1, q.2) ∈ calls.rows from hq)
  rw [h q.1 hne] at hget
  cases hget

/-- A call alone, with an amount before it that does not fit, ends with nothing added. -/
theorem raises_alone (todo : List (Nat × Int)) :
    ∀ (w : RollupWorld) (id : Nat) (flushed : List Budget), (∀ j, j ≠ id → w.calls.get? j = none) →
      w.calls.get? id = some (.inserting todo flushed) → (∃ e ∈ todo, ¬ FitsColumn e.2) →
      ∃ events, (run (rollupStep db orgId (some plan) period) w events).budgets = w.budgets ∧
        AnyEnded (run (rollupStep db orgId (some plan) period) w events) := by
  induction todo with
  | nil => rintro w id flushed - - ⟨e, he, -⟩; cases he
  | cons e todo ih =>
    intro w id flushed halone hid hbig
    obtain ⟨masterId, amount⟩ := e
    have hstep : rollupStep db orgId (some plan) period w (.insert id) =
        insertRow orgId period w id masterId amount todo flushed := by
      rw [rollupStep, hid]
      rfl
    by_cases hfits : FitsColumn amount
    · have hbig' : ∃ e ∈ todo, ¬ FitsColumn e.2 := by
        obtain ⟨e, he, hbig⟩ := hbig
        rcases List.mem_cons.mp he with rfl | he
        · exact absurd hfits hbig
        · exact ⟨e, he, hbig⟩
      have hnext : ∃ flushed', insertRow orgId period w id masterId amount todo flushed =
          .ok (w.goto id (.inserting todo flushed')) := by
        rw [insertRow, if_neg (not_not.mpr hfits), (refuse_eq_ok (u := ())).mpr (not_heldBy_alone halone _), bind_ok]
        split
        · exact ⟨_, rfl⟩
        · exact ⟨_, rfl⟩
      obtain ⟨flushed', hnext⟩ := hnext
      obtain ⟨events, hbudgets, hended⟩ := ih (w.goto id (.inserting todo flushed')) id flushed'
        (fun j hj => (Table.get?_modify_of_ne hj).trans (halone j hj)) (Table.get?_modify_self hid) hbig'
      refine ⟨.insert id :: events, ?_⟩
      rw [run_cons, serve_of_ok (hstep.trans hnext)]
      exact ⟨hbudgets, hended⟩
    · have hnext : insertRow orgId period w id masterId amount todo flushed =
          .ok (w.goto id (.raised (.runtime "Out of range value for column 'amount'"))) := by
        rw [insertRow, if_pos hfits]
      refine ⟨[.insert id], ?_⟩
      rw [run_cons, serve_of_ok (hstep.trans hnext), run_nil]
      exact ⟨rfl, id, _, Table.get?_modify_self hid, trivial⟩

/-- **After any run in which a call has run to its end the budgets are rolled up, and no
later step changes them, iff every amount due fits the column.** -/
theorem budgets_roll_up_iff (hTree : TreeOk db.categories) (orgId : Nat) (plan : ForecastPlan) (period : BillingPeriod)
    (before : List Budget) :
    (∀ events, AnyEnded (run (rollupStep db orgId (some plan) period) { budgets := before } events) →
      RolledUp db orgId plan period before
        (run (rollupStep db orgId (some plan) period) { budgets := before } events).budgets ∧
      ∀ more, (run (rollupStep db orgId (some plan) period) { budgets := before } (events ++ more)).budgets =
        (run (rollupStep db orgId (some plan) period) { budgets := before } events).budgets) ↔
    ∀ m, Due db orgId plan period before m → FitsColumn (groupAmount db orgId plan m) := by
  constructor
  · intro hall m hm
    by_contra hbig
    cases htodo : forecastBudgetAmounts db orgId (some plan) before period.startDate with
    | error e => cases htodo
    | ok todo =>
      have hbegin : rollupStep db orgId (some plan) period { budgets := before } .begin =
          .ok { budgets := before, calls := Table.empty.insert (.inserting todo []) } := by
        rw [rollupStep, beginRollup, htodo]
      have hin := (mem_forecastBudgetAmounts hTree htodo (e := (m, groupAmount db orgId plan m))).mpr ⟨hm, rfl⟩
      obtain ⟨events, hbudgets, hended⟩ := @raises_alone db orgId plan period
        todo { budgets := before, calls := Table.empty.insert (.inserting todo []) } Table.empty.next []
        (fun j hj => by rw [Table.get?_insert, if_neg hj]; rfl) (by rw [Table.get?_insert, if_pos rfl])
        ⟨_, hin, hbig⟩
      have hrun : run (rollupStep db orgId (some plan) period) { budgets := before } (.begin :: events) =
          run (rollupStep db orgId (some plan) period)
            { budgets := before, calls := Table.empty.insert (.inserting todo []) } events := by
        rw [run_cons, serve_of_ok hbegin]
      have hrolled := (hall (.begin :: events) (by rw [hrun]; exact hended)).1
      rw [hrun, hbudgets] at hrolled
      have hexact := hrolled.exact m hm
      rw [hm.unbudgeted] at hexact
      cases hexact
  · intro hfits events hended
    obtain ⟨added, hinv⟩ := rollupInv_run hTree (rollupInv_init before) events
    rw [List.nil_append] at hinv
    have hall := hinv.all_in hended hfits
    refine ⟨hinv.rolledUp hall, fun more => ?_⟩
    obtain ⟨extra, hinv'⟩ := rollupInv_run hTree hinv more
    rw [run_append, hinv'.budgets, hinv'.closed hall, List.append_nil, hinv.budgets]

/-- A master, 1, and a subcategory of it, 2. -/
def foodTree : Db :=
  { categories := (Table.empty.insert { orgId := 1, name := "Food" }).insert
      { orgId := 1, name := "Groceries", parentId := some 1 } }

theorem foodTree_ok : TreeOk foodTree.categories := by
  intro i c p hget hp
  have hrow := Table.mem_rows.mpr hget
  have hrows : (i, c) = (1, { orgId := 1, name := "Food" }) ∨
      (i, c) = (2, { orgId := 1, name := "Groceries", parentId := some 1 }) := by
    simpa [foodTree, Table.insert, Table.empty] using hrow
  rcases hrows with h | h
  · cases h
    cases hp
  · cases h
    cases hp
    exact ⟨{ orgId := 1, name := "Food" }, rfl, rfl, rfl, rfl⟩

def planOn (master sub : Int) : ForecastPlan where
  items := [{ categoryId := 1, type := .expense, plannedAmount := master, source := .manual },
    { categoryId := 2, type := .expense, plannedAmount := sub, source := .manual }]
  keyed := by
    change ([(1, .expense), (2, .expense)] : List ItemKey).Nodup
    decide

def june : BillingPeriod := { orgId := 1, startDate := 739038, endDate := some 739067 }

theorem budgets_roll_up_food :
    RolledUp foodTree 1 (planOn 10000 2500) june []
      (run (rollupStep foodTree 1 (some (planOn 10000 2500)) june) { budgets := [] }
        [.begin, .insert 1, .commit 1]).budgets := by
  have hended : AnyEnded (run (rollupStep foodTree 1 (some (planOn 10000 2500)) june) { budgets := [] }
      [.begin, .insert 1, .commit 1]) := ⟨1, .returned, rfl, trivial⟩
  refine ((budgets_roll_up_iff foodTree_ok 1 (planOn 10000 2500) june []).mpr ?_ _ hended).1
  intro m hm
  obtain ⟨i, hi⟩ := List.exists_mem_of_ne_nil _ hm.planned
  obtain ⟨hitem, hgroup⟩ := List.mem_filter.mp hi
  have hgroup := (of_decide_eq_true hgroup).2
  have hm12 : m = 1 ∨ m = 2 := by
    rcases List.mem_pair.mp hitem with rfl | rfl
    · rcases hgroup with h | h
      · exact Or.inl h.symm
      · cases h
    · rcases hgroup with h | h
      · exact Or.inr h.symm
      · exact Or.inl (Option.some.inj h).symm
  rcases hm12 with rfl | rfl <;> decide

/-- Two amounts that fit, whose sum does not: the one call ends, and no budget is there. -/
theorem rollup_of_large_amounts :
    AnyEnded (run (rollupStep foodTree 1 (some (planOn 999999999999 1)) june) { budgets := [] } [.begin, .insert 1]) ∧
    ¬ RolledUp foodTree 1 (planOn 999999999999 1) june []
      (run (rollupStep foodTree 1 (some (planOn 999999999999 1)) june) { budgets := [] } [.begin, .insert 1]).budgets := by
  have hrun : run (rollupStep foodTree 1 (some (planOn 999999999999 1)) june) { budgets := [] } [.begin, .insert 1] =
      { budgets := []
        calls := Table.empty.insert (.raised (.runtime "Out of range value for column 'amount'")) } := by rfl
  rw [hrun]
  refine ⟨⟨1, _, rfl, trivial⟩, fun h => ?_⟩
  have hexact := h.exact 1 ⟨rfl, by decide, rfl⟩
  cases hexact

end BetterDecision
