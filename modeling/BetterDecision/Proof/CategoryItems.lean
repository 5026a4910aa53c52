import BetterDecision.Proof.CategoryLedger
import BetterDecision.Proof.ForecastPlan

/-!
# Plan items on their categories

An item is planned by a user, for a category that was just asked for; or by populate, for a
group of rows and templates that fit; or copied from a plan that fits. A group is a
category or its master, and the tree gives the two one type.
-/

namespace BetterDecision

open CategoryDb

variable {db db' : CategoryDb} {cats : Table Category} {orgId : Nat}

/-! ## Fitting -/

/-- The type of the rows an item plans. -/
def itemTransactionType : ForecastItemType → TransactionType
  | .income => .income
  | .expense => .expense

def KeyFits (cats : Table Category) (orgId : Nat) (key : ItemKey) : Prop :=
  Takes cats orgId key.1 (itemTransactionType key.2)

def PlanFits (cats : Table Category) (orgId : Nat) (plan : ForecastPlan) : Prop :=
  ∀ i ∈ plan.items, KeyFits cats orgId i.key

def PlansFit (cats : Table Category) (plans : Table PlanRow) : Prop :=
  ∀ i p, plans.get? i = some p → PlanFits cats p.orgId p.plan

theorem itemTypeMatches_eq (c : CategoryType) (type : ForecastItemType) :
    itemTypeMatches c type = categoryTypeMatches c (itemTransactionType type) := by
  cases c <;> cases type <;> rfl

theorem planFits_empty : PlanFits cats orgId {} := fun _ h => by cases h

theorem withItems_items {plan plan' : ForecastPlan} {items : List ForecastPlanItem}
    (h : plan.withItems items = .ok plan') : plan'.items = items := by
  unfold ForecastPlan.withItems at h
  split at h
  · rw [← Except.ok.inj h]
  · cases h

/-! ## Populate -/

section Populate

variable {books : Db} {roundedMean : Int → Nat → Int} {period : BillingPeriod}

/-- A group takes what the category of the row takes: it is that category or its master. -/
theorem groupOf_fits (ht : TreeOk books.categories) {cat : Nat} {type : TransactionType} {key : ItemKey}
    (h : Takes books.categories orgId cat type) (hkey : groupOf books orgId cat type = some key) :
    KeyFits books.categories orgId key := by
  obtain ⟨t, htype, rfl⟩ := Option.map_eq_some_iff.mp hkey
  have hsame : itemTransactionType t = type := by
    cases type <;> cases htype <;> rfl
  show Takes books.categories orgId (groupKey books orgId cat) (itemTransactionType t)
  rw [hsame]
  unfold groupKey
  split
  · exact h
  · obtain ⟨c, hc, horg, hmatch⟩ := h
    unfold masterOf
    rw [findCategory_eq_some.mpr ⟨hc, horg⟩, Option.bind_some]
    rcases hp : c.parentId with _ | p
    · exact ⟨c, hc, horg, hmatch⟩
    · obtain ⟨m, hm, hmorg, -, hmt⟩ := ht cat c p hc hp
      exact ⟨m, hm, hmorg.trans horg, hmt ▸ hmatch⟩

theorem projected_fits (ht : TreeOk books.categories) (hb : BooksFit books) {pStart pEnd : Int} {existing : List ItemKey}
    {e : ItemKey × Int} (h : e ∈ projectedOccurrences books orgId pStart pEnd existing) :
    KeyFits books.categories orgId e.1 := by
  obtain ⟨⟨i, r⟩, hr, h⟩ := List.mem_flatMap.mp h
  obtain ⟨hget, htest⟩ := Table.mem_select.mp (List.mem_of_mem_filter hr)
  simp only [Bool.and_eq_true, beq_iff_eq] at htest
  dsimp only at h
  split at h
  · cases h
  · rename_i key hkey
    split at h
    · cases h
    · obtain ⟨d, -, rfl⟩ := List.mem_map.mp h
      have hfit := hb.templates i r hget
      unfold TemplateFits at hfit
      rw [htest.1.1.1.1] at hfit
      exact groupOf_fits ht hfit hkey

theorem periodAmounts_fits (ht : TreeOk books.categories) (hb : BooksFit books) {pStart pEnd : Int} {generated : Bool}
    {e : ItemKey × Int} (h : e ∈ periodAmounts books orgId pStart pEnd generated) : KeyFits books.categories orgId e.1 := by
  obtain ⟨⟨i, t⟩, hmem, h⟩ := List.mem_filterMap.mp h
  obtain ⟨hget, htest⟩ := Table.mem_select.mp (List.mem_of_mem_filter hmem)
  simp only [Bool.and_eq_true, beq_iff_eq] at htest
  obtain ⟨key, hkey, rfl⟩ := Option.map_eq_some_iff.mp h
  have hfit := (hb.rows i t hget).2
  rw [htest.1.1.1.1] at hfit
  exact groupOf_fits ht hfit hkey

theorem historyRows_fits (ht : TreeOk books.categories) (hb : BooksFit books) {pStart : Int} {e : ItemKey × HistoryRow}
    (h : e ∈ historyRows books orgId pStart) : KeyFits books.categories orgId e.1 := by
  obtain ⟨⟨i, t⟩, hmem, h⟩ := List.mem_filterMap.mp h
  obtain ⟨hget, htest⟩ := Table.mem_select.mp hmem
  simp only [Bool.and_eq_true, beq_iff_eq] at htest
  obtain ⟨key, hkey, rfl⟩ := Option.map_eq_some_iff.mp h
  have hfit := (hb.rows i t hget).2
  rw [htest.1.1.1.1.1.1] at hfit
  exact groupOf_fits ht hfit hkey

theorem candidates_fit (ht : TreeOk books.categories) (hb : BooksFit books) {pStart pEnd : Int} {existing : List ItemKey}
    {key : ItemKey} (h : key ∈ (planSources books orgId roundedMean pStart pEnd existing).candidates) :
    KeyFits books.categories orgId key := by
  have h := List.mem_eraseDups.mp h
  rcases List.mem_append.mp h with h | h
  · rcases List.mem_append.mp h with h | h
    · obtain ⟨e, he, rfl⟩ := List.mem_map.mp h
      rcases List.mem_append.mp he with he | he
      · exact projected_fits ht hb he
      · exact periodAmounts_fits ht hb he
    · obtain ⟨e, he, rfl⟩ := List.mem_map.mp h
      exact periodAmounts_fits ht hb he
  · obtain ⟨e, he, rfl⟩ := List.mem_map.mp h
    exact historyRows_fits ht hb he

/-- What the loop adds is of a group it was given. -/
theorem out_of_candidates {sources : PlanSources} {seededMaster pre : List ItemKey} :
    ∀ (candidates : List ItemKey) (st : PopulateState), ∀ i ∈
      (candidates.foldl (considerGroup books orgId sources seededMaster pre) st).out, i ∈ st.out ∨ i.key ∈ candidates := by
  intro candidates
  induction candidates with
  | nil => exact fun st i hi => .inl hi
  | cons key candidates ih =>
    intro st i hi
    rcases ih _ i hi with hi | hi
    · by_cases hs : Settled books orgId sources seededMaster pre st key
      · rw [considerGroup_of_settled hs] at hi
        exact .inl hi
      · rw [considerGroup_of_not_settled hs, add_out] at hi
        rcases List.mem_append.mp hi with hi | hi
        · exact .inl hi
        · rw [List.mem_singleton.mp hi]
          exact .inr List.mem_cons_self
    · exact .inr (List.mem_cons_of_mem _ hi)

theorem planPopulate_fits (ht : TreeOk books.categories) (hb : BooksFit books) {items out : List ForecastPlanItem}
    {pairs : Option (List ItemKey)} (h : planPopulate books orgId roundedMean period items pairs = .ok out) :
    ∀ i ∈ out, KeyFits books.categories orgId i.key := by
  obtain ⟨pEnd, -, rfl⟩ := planPopulate_eq_ok.mp h
  intro i hi
  rcases out_of_candidates _ _ i hi with hi | hi
  · rw [seeded_out] at hi
    cases hi
  · exact candidates_fit ht hb hi

/-- A copy takes over items of its source. -/
theorem mem_planCopy {source target : List ForecastPlanItem} {i : ForecastPlanItem}
    (h : i ∈ planCopy books orgId source target) : i ∈ source := by
  unfold planCopy at h
  dsimp only at h
  have hloop : ∀ (rest : List ForecastPlanItem) (acc : List ForecastPlanItem × List ItemKey) (j : ForecastPlanItem),
      j ∈ (rest.foldl (fun acc i =>
        if copies books orgId (PopulateState.seeded books orgId target).claimedMaster
            (PopulateState.seeded books orgId target).claimedSub acc.2 i then (acc.1 ++ [i], i.key :: acc.2) else acc) acc).1 →
      j ∈ acc.1 ∨ j ∈ rest := by
    intro rest
    induction rest with
    | nil => exact fun acc j hj => .inl hj
    | cons k rest ih =>
      intro acc j hj
      rcases ih _ j hj with hj | hj
      · dsimp only at hj
        split at hj
        · rcases List.mem_append.mp hj with hj | hj
          · exact .inl hj
          · rw [List.mem_singleton.mp hj]
            exact .inr List.mem_cons_self
        · exact .inl hj
      · exact .inr (List.mem_cons_of_mem _ hj)
  rcases hloop source _ i h with h | h
  · cases h
  · exact h

/-- **Populate, refresh and copy plan for categories that take the item.** -/
theorem planAfter_fits (ht : TreeOk books.categories) (hb : BooksFit books) {plans : Plans} {call : PlanCall}
    {plan : ForecastPlan} (hplans : ∀ periodId p, plans periodId = some p → PlanFits books.categories orgId p)
    (h : planAfter books orgId roundedMean plans call = .ok plan) : PlanFits books.categories orgId plan := by
  have hat : ∀ periodId, PlanFits books.categories orgId (planAt plans periodId) := by
    intro periodId
    unfold planAt
    rcases hp : plans periodId with _ | p
    · exact planFits_empty
    · exact hplans periodId p hp
  obtain ⟨period, -, ⟨periodId, -, h⟩ | ⟨periodId, -, h⟩ | ⟨targetId, sourceId, -, -, h⟩⟩ := planAfter_cases h
  · obtain ⟨-, -, rows, hrows, hitems⟩ := populateFromSources_eq_ok.mp h
    intro i hi
    rw [hitems] at hi
    rcases List.mem_append.mp hi with hi | hi
    · exact hat periodId i hi
    · exact planPopulate_fits ht hb hrows i hi
  · obtain ⟨-, -, rows, hrows, hitems⟩ := refreshFromSources_eq_ok.mp h
    intro i hi
    rw [hitems] at hi
    rcases List.mem_append.mp hi with hi | hi
    · exact hat periodId i (List.mem_of_mem_filter hi)
    · exact planPopulate_fits ht hb hrows i hi
  · obtain ⟨src, hsrc, -, -, -, hitems⟩ := copyFromPeriod_eq_ok.mp h
    intro i hi
    rw [hitems] at hi
    rcases List.mem_append.mp hi with hi | hi
    · exact hat targetId i hi
    · obtain ⟨j, hj, rfl⟩ := List.mem_map.mp hi
      exact hplans sourceId src hsrc j (mem_planCopy hj)

end Populate

/-! ## Items a user writes -/

theorem validateCategoryGranularity_ok {categoryId : Nat} {type : ForecastItemType} {u : Unit}
    (h : validateCategoryGranularity db orgId categoryId type = .ok u) :
    KeyFits db.books.categories orgId (categoryId, type) := by
  obtain ⟨c, hc, h⟩ := bind_eq_ok.mp h
  obtain ⟨_, _, h⟩ := bind_eq_ok.mp h
  obtain ⟨hget, horg⟩ := findCategory_eq_some.mp (found_eq_ok.mp hc)
  have hmatch := not_not.mp (refuse_eq_ok.mp h)
  rw [itemTypeMatches_eq] at hmatch
  exact ⟨c, hget, horg, hmatch⟩

theorem checkItemType_ok {w : ItemWrite} {u : Unit} (h : checkItemType db orgId w = .ok u) :
    KeyFits db.books.categories orgId w.item.key := by
  obtain ⟨c, hc, h⟩ := bind_eq_ok.mp h
  obtain ⟨hget, horg⟩ := findCategory_eq_some.mp (found_eq_ok.mp hc)
  have hmatch := not_not.mp (refuse_eq_ok.mp h)
  rw [itemTypeMatches_eq] at hmatch
  exact ⟨c, hget, horg, hmatch⟩

theorem mem_putItem {items : List ForecastPlanItem} {w : ItemWrite} {i : ForecastPlanItem} (h : i ∈ putItem items w) :
    i ∈ items ∨ i = w.item := by
  unfold putItem at h
  split at h
  · obtain ⟨j, hj, rfl⟩ := List.mem_map.mp h
    split
    · exact .inr rfl
    · exact .inl hj
  · rcases List.mem_append.mp h with h | h
    · exact .inl h
    · exact .inr (List.mem_singleton.mp h)

theorem mem_putItems {ws : List ItemWrite} : ∀ {items : List ForecastPlanItem} {i : ForecastPlanItem},
    i ∈ ws.foldl putItem items → i ∈ items ∨ ∃ w ∈ ws, i = w.item := by
  induction ws with
  | nil => exact fun h => .inl h
  | cons w ws ih =>
    intro items i h
    rcases ih h with h | ⟨v, hv, rfl⟩
    · rcases mem_putItem h with h | rfl
      · exact .inl h
      · exact .inr ⟨w, List.mem_cons_self, rfl⟩
    · exact .inr ⟨v, List.mem_cons_of_mem _ hv, rfl⟩

/-! ## Plans written -/

/-- What a write of plans leaves: everything else as it was, and every plan fitting. -/
structure PlansKept (db db' : CategoryDb) : Prop where
  books : db'.books = db.books
  fit : BooksFit db.books → TreeOk db.books.categories → PlansFit db.books.categories db.plans →
    PlansFit db.books.categories db'.plans

theorem editPlan_kept {planId : Nat} {f : ForecastPlan → Result ForecastPlan}
    (hf : ∀ plan plan', f plan = .ok plan' → PlanFits db.books.categories orgId plan →
      PlanFits db.books.categories orgId plan')
    (h : db.editPlan orgId planId f = .ok db') : PlansKept db db' := by
  obtain ⟨row, hrow, h⟩ := bind_eq_ok.mp h
  obtain ⟨plan, hplan, h⟩ := bind_eq_ok.mp h
  obtain rfl := Except.ok.inj h
  obtain ⟨hget, horg⟩ := Option.filter_eq_some_iff.mp (found_eq_ok.mp hrow)
  have horg : row.orgId = orgId := beq_iff_eq.mp horg
  refine ⟨rfl, fun _ _ hfit i p hp => ?_⟩
  obtain ⟨q, hq, rfl⟩ := Table.get?_modify_eq_some.mp hp
  split
  · rename_i hi
    obtain rfl : row = q := Option.some.inj (hget.symm.trans (hi ▸ hq))
    show PlanFits db.books.categories row.orgId plan
    rw [horg]
    exact hf row.plan plan hplan (horg ▸ hfit planId row hget)
  · exact hfit i q hq

theorem upsertItem_kept {planId : Nat} {w : ItemWrite} (h : db.upsertItem orgId planId w = .ok db') :
    PlansKept db db' := by
  refine editPlan_kept (fun plan plan' hp hfit i hi => ?_) h
  obtain ⟨_, _, hp⟩ := bind_eq_ok.mp hp
  obtain ⟨_, hvalid, hp⟩ := bind_eq_ok.mp hp
  rw [withItems_items hp] at hi
  rcases mem_putItem hi with hi | rfl
  · exact hfit i hi
  · exact validateCategoryGranularity_ok hvalid

theorem bulkUpsert_kept {planId : Nat} {ws : List ItemWrite} (h : db.bulkUpsert orgId planId ws = .ok db') :
    PlansKept db db' := by
  refine editPlan_kept (fun plan plan' hp hfit i hi => ?_) h
  obtain ⟨_, _, hp⟩ := bind_eq_ok.mp hp
  obtain ⟨_, _, hp⟩ := bind_eq_ok.mp hp
  obtain ⟨checked, hchecked, hp⟩ := bind_eq_ok.mp hp
  rw [withItems_items hp] at hi
  rcases mem_putItems hi with hi | ⟨w, hw, rfl⟩
  · exact hfit i hi
  · obtain ⟨u, hu⟩ := exists_of_mapM_eq_ok hchecked w hw
    exact checkItemType_ok hu

theorem updateItem_kept {planId : Nat} {key : ItemKey} {plannedAmount : Int}
    (h : db.updateItem orgId planId key plannedAmount = .ok db') : PlansKept db db' := by
  refine editPlan_kept (fun plan plan' hp hfit i hi => ?_) h
  obtain ⟨_, _, hp⟩ := bind_eq_ok.mp hp
  obtain ⟨_, _, hp⟩ := bind_eq_ok.mp hp
  rw [withItems_items hp] at hi
  obtain ⟨j, hj, rfl⟩ := List.mem_map.mp hi
  split
  · exact hfit j hj
  · exact hfit j hj

theorem deleteItem_kept {planId : Nat} {key : ItemKey} (h : db.deleteItem orgId planId key = .ok db') :
    PlansKept db db' := by
  refine editPlan_kept (fun plan plan' hp hfit i hi => ?_) h
  obtain ⟨_, _, hp⟩ := bind_eq_ok.mp hp
  obtain ⟨_, _, hp⟩ := bind_eq_ok.mp hp
  rw [withItems_items hp] at hi
  exact hfit i (List.mem_of_mem_filter hi)

theorem activatePlan_kept {planId : Nat} (h : db.activatePlan orgId planId = .ok db') : PlansKept db db' := by
  refine editPlan_kept (fun plan plan' hp hfit => ?_) h
  obtain ⟨_, _, hp⟩ := bind_eq_ok.mp hp
  obtain ⟨_, _, hp⟩ := bind_eq_ok.mp hp
  obtain rfl := Except.ok.inj hp
  exact hfit

theorem revertToDraft_kept {planId : Nat} (h : db.revertToDraft orgId planId = .ok db') : PlansKept db db' := by
  refine editPlan_kept (fun plan plan' hp hfit => ?_) h
  obtain ⟨_, _, hp⟩ := bind_eq_ok.mp hp
  obtain rfl := Except.ok.inj hp
  exact hfit

theorem discardPlan_kept {planId : Nat} (h : db.discardPlan orgId planId = .ok db') : PlansKept db db' := by
  refine editPlan_kept (fun plan plan' hp _ => ?_) h
  obtain ⟨_, _, hp⟩ := bind_eq_ok.mp hp
  obtain rfl := Except.ok.inj hp
  exact planFits_empty

theorem planRowOf_some {periodId planId : Nat} {p : PlanRow} (h : db.planRowOf orgId periodId = some (planId, p)) :
    db.plans.get? planId = some p ∧ p.orgId = orgId := by
  obtain ⟨hget, htest⟩ := Table.mem_select.mp (List.mem_of_mem_head? h)
  simp only [Bool.and_eq_true, beq_iff_eq] at htest
  exact ⟨hget, htest.1⟩

theorem plansOf_fit (h : PlansFit db.books.categories db.plans) (periodId : Nat) (plan : ForecastPlan)
    (hplan : db.plansOf orgId periodId = some plan) : PlanFits db.books.categories orgId plan := by
  obtain ⟨⟨planId, p⟩, hrow, rfl⟩ := Option.map_eq_some_iff.mp hplan
  obtain ⟨hget, horg⟩ := planRowOf_some hrow
  exact horg ▸ h planId p hget

theorem setPlan_kept {periodId : Nat} {plan : ForecastPlan}
    (hfit : BooksFit db.books → TreeOk db.books.categories → PlansFit db.books.categories db.plans →
      PlanFits db.books.categories orgId plan) : PlansKept db (db.setPlan orgId periodId plan) := by
  unfold setPlan
  split
  · rename_i planId p hrow
    obtain ⟨hget, horg⟩ := planRowOf_some hrow
    refine ⟨rfl, fun hb ht hplans i q hq => ?_⟩
    obtain ⟨r, hr, rfl⟩ := Table.get?_modify_eq_some.mp hq
    split
    · rename_i hi
      obtain rfl : p = r := Option.some.inj (hget.symm.trans (hi ▸ hr))
      show PlanFits db.books.categories p.orgId plan
      rw [horg]
      exact hfit hb ht hplans
    · exact hplans i r hr
  · refine ⟨rfl, fun hb ht hplans i q hq => ?_⟩
    rw [Table.get?_insert] at hq
    split at hq
    · obtain rfl := Option.some.inj hq
      exact hfit hb ht hplans
    · exact hplans i q hq

theorem getOrCreatePlan_kept {periodId : Nat} (h : db.getOrCreatePlan orgId periodId = .ok db') : PlansKept db db' := by
  obtain ⟨_, _, h⟩ := bind_eq_ok.mp h
  obtain rfl := Except.ok.inj h
  refine setPlan_kept fun _ _ hplans => ?_
  unfold planAt
  rcases hp : db.plansOf orgId periodId with _ | p
  · exact planFits_empty
  · exact plansOf_fit hplans periodId p hp

theorem writePlan_kept {roundedMean : Int → Nat → Int} {call : PlanCall}
    (h : writePlan roundedMean db orgId call = .ok db') : PlansKept db db' := by
  obtain ⟨plan, hplan, h⟩ := bind_eq_ok.mp h
  obtain rfl := Except.ok.inj h
  exact setPlan_kept fun hb ht hplans => planAfter_fits ht hb (plansOf_fit hplans) hplan

end BetterDecision
