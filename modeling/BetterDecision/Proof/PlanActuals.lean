import BetterDecision.Model.PlanActuals

/-!
# Every row counts in one item

`itemFor` says where a row belongs: to the item of its own category and type, else to the
one of the parent's. The batched sums agree with it (`actualKey_eq_iff`), group by group,
so an item's actual is the sum of its own rows and of no others.
-/

namespace BetterDecision

variable {db : Db} {orgId : Nat} {items : List ForecastPlanItem}

/-- The item a row of this category and type counts in. -/
def itemFor (db : Db) (orgId : Nat) (items : List ForecastPlanItem) (categoryId : Nat) (type : TransactionType) :
    Option ForecastPlanItem :=
  (itemType type).bind (fun t =>
    (rowAt ForecastPlanItem.key items (categoryId, t)).or
      (((findCategory db orgId categoryId).bind (·.parentId)).bind (fun p => rowAt ForecastPlanItem.key items (p, t))))

/-- The parents that are read are those of the items. -/
theorem parentOfItems_lookup (db : Db) (orgId : Nat) (items : List ForecastPlanItem) (cat : Nat) :
    (parentOfItems db orgId items).lookup cat =
      ((findCategory db orgId cat).bind (·.parentId)).filter (fun p => (items.map (·.categoryId)).contains p) := by
  have hmem : ∀ p, (cat, p) ∈ parentOfItems db orgId items ↔
      (items.map (·.categoryId)).contains p = true ∧ (findCategory db orgId cat).bind (·.parentId) = some p := by
    intro p
    unfold parentOfItems findCategory
    rw [List.mem_filterMap]
    constructor
    · intro ⟨⟨i, c⟩, hc, h⟩
      obtain ⟨q, hq, heq⟩ := Option.map_eq_some_iff.mp h
      obtain ⟨rfl, rfl⟩ := Prod.mk.inj heq
      obtain ⟨hget, htest⟩ := Table.mem_select.mp hc
      dsimp only at hq htest
      rw [hq, Bool.and_eq_true] at htest
      refine ⟨htest.2, ?_⟩
      dsimp only
      rw [hget, Option.filter_some, if_pos htest.1, Option.bind_some, hq]
    · intro ⟨hcontains, hparent⟩
      obtain ⟨c, hc, hp⟩ := Option.bind_eq_some_iff.mp hparent
      obtain ⟨hget, horg⟩ := Option.filter_eq_some_iff.mp hc
      refine ⟨(cat, c), Table.mem_select.mpr ⟨hget, ?_⟩, by rw [hp]; rfl⟩
      rw [horg, hp]
      exact hcontains
  rcases hl : (parentOfItems db orgId items).lookup cat with _ | p
  · symm
    rw [Option.filter_eq_none_iff]
    intro p hp hcontains
    obtain ⟨q, hq⟩ := exists_lookup_of_mem ((hmem p).mpr ⟨hcontains, hp⟩)
    rw [hl] at hq
    cases hq
  · obtain ⟨hcontains, hp⟩ := (hmem p).mp (mem_of_lookup_eq_some hl)
    rw [hp, Option.filter_some, if_pos hcontains]

theorem contains_key_iff (cat : Nat) (t : ForecastItemType) :
    (items.map (fun i => (i.categoryId, some i.type))).contains (cat, some t) = true ↔
      ∃ i, rowAt ForecastPlanItem.key items (cat, t) = some i := by
  rw [List.contains_iff_mem, List.mem_map]
  constructor
  · intro ⟨i, hi, heq⟩
    obtain ⟨hcat, htype⟩ := Prod.mk.inj heq
    rcases hr : rowAt ForecastPlanItem.key items (cat, t) with _ | j
    · exact absurd (Prod.ext hcat (Option.some.inj htype)) (rowAt_eq_none.mp hr i hi)
    · exact ⟨j, rfl⟩
  · intro ⟨i, hi⟩
    have hkey : ForecastPlanItem.key i = (cat, t) := key_of_rowAt hi
    obtain ⟨hcat, htype⟩ := Prod.mk.inj hkey
    exact ⟨i, mem_of_rowAt hi, Prod.ext hcat (congrArg some htype)⟩

/-- **A sum that is read lands in an item exactly when its rows belong there.** -/
theorem actualKey_eq_iff (hkeyed : Keyed ForecastPlanItem.key items) {cat : Nat} {type : TransactionType}
    {item : ForecastPlanItem} (hitem : item ∈ items) (htype : type ≠ .transfer) :
    (actualKey db orgId items (cat, type) = (item.categoryId, some item.type) ∧
        (actualCategories db orgId items).contains cat = true) ↔
      itemFor db orgId items cat type = some item := by
  obtain ⟨t, ht⟩ : ∃ t, itemType type = some t := by
    cases type with
    | income => exact ⟨.income, rfl⟩
    | expense => exact ⟨.expense, rfl⟩
    | transfer => exact absurd rfl htype
  have hown : ∀ c, (c, some t) = (item.categoryId, some item.type) ↔
      rowAt ForecastPlanItem.key items (c, t) = some item := by
    intro c
    rw [hkeyed.rowAt_eq_some]
    constructor
    · intro h
      obtain ⟨hc, ht⟩ := Prod.mk.inj h
      exact ⟨hitem, Prod.ext hc.symm (Option.some.inj ht).symm⟩
    · intro ⟨_, h⟩
      obtain ⟨hc, ht⟩ := Prod.mk.inj h
      exact Prod.ext hc.symm (congrArg some ht.symm)
  have hread : (actualCategories db orgId items).contains cat = true ↔
      (∃ i ∈ items, i.categoryId = cat) ∨ ∃ p, (parentOfItems db orgId items).lookup cat = some p := by
    unfold actualCategories
    rw [List.contains_iff_mem, List.mem_append, List.mem_map, List.mem_map]
    refine or_congr Iff.rfl ⟨fun ⟨e, he, hcat⟩ => ?_, fun ⟨p, hp⟩ => ⟨_, mem_of_lookup_eq_some hp, rfl⟩⟩
    exact exists_lookup_of_mem (by rw [← hcat]; exact he)
  unfold itemFor actualKey
  rw [ht, Option.bind_some]
  rcases hmine : rowAt ForecastPlanItem.key items (cat, t) with _ | mine
  · -- no item of its own: the parent's, if that is read at all
    have hnot : (items.map (fun i => (i.categoryId, some i.type))).contains (cat, some t) = false := by
      rw [← Bool.not_eq_true, contains_key_iff]
      rintro ⟨i, hi⟩
      rw [hmine] at hi
      cases hi
    simp only [hnot, Bool.false_eq_true, if_false, Option.none_or]
    rw [hread, parentOfItems_lookup]
    rcases hparent : (findCategory db orgId cat).bind (·.parentId) with _ | p
    · rw [Option.filter_none, Option.getD_none, hown, hmine]
      simp
    · rw [Option.bind_some, Option.filter_some]
      split
      · rw [Option.getD_some, hown]
        exact ⟨fun h => h.1, fun h => ⟨h, Or.inr ⟨p, rfl⟩⟩⟩
      · rename_i hforeign
        rw [Option.getD_none, hown, hmine]
        constructor
        · intro h
          cases h.1
        · intro h
          refine absurd ?_ hforeign
          rw [List.contains_iff_mem, List.mem_map]
          exact ⟨item, hitem, congrArg Prod.fst (key_of_rowAt h)⟩
  · have hhas : (items.map (fun i => (i.categoryId, some i.type))).contains (cat, some t) = true :=
      (contains_key_iff cat t).mpr ⟨mine, hmine⟩
    simp only [hhas, if_true, Option.some_or]
    rw [hread, hown, hmine]
    refine ⟨fun h => h.1, fun h => ⟨h, Or.inl ⟨item, hitem, ?_⟩⟩⟩
    exact congrArg Prod.fst (key_of_rowAt (hmine.trans h))

/-- The rows of the window, with what they count. -/
def actualRows (db : Db) (orgId : Nat) (pStart : Int) (pEnd : Option Int) (currencyScope : Option CurrencyScope) :
    List Row :=
  db.transactions.select (fun id t => isActual db orgId pStart pEnd currencyScope (id, t))

theorem type_of_isActual {pStart : Int} {pEnd : Option Int} {currencyScope : Option CurrencyScope} {row : Row}
    (h : isActual db orgId pStart pEnd currencyScope row = true) : row.2.type ≠ .transfer := by
  unfold isActual at h
  simp only [Bool.and_eq_true] at h
  simpa using h.1.1.1.2

/-- An item's actual is the sum of the rows that belong to it. -/
theorem actualOf_eq (hkeyed : Keyed ForecastPlanItem.key items) {pStart : Int} {pEnd : Option Int}
    {currencyScope : Option CurrencyScope} {item : ForecastPlanItem} (hitem : item ∈ items) :
    actualOf db orgId items pStart pEnd currencyScope item =
      (((actualRows db orgId pStart pEnd currencyScope).filter (fun row =>
        itemFor db orgId items row.2.categoryId row.2.type == some item)).map (fun row => (row.2.amount : Int))).sum := by
  have hsome : items ≠ [] := List.ne_nil_of_mem hitem
  unfold actualOf computeActualsBatch actualGroups actualRows
  rw [if_neg hsome, List.filter_map, List.map_map]
  have hsum := sum_groupSum (fun row : Row => (row.2.categoryId, row.2.type)) (fun row => (row.2.amount : Int))
    (db.transactions.select (fun id t => isActual db orgId pStart pEnd currencyScope (id, t) &&
      (actualCategories db orgId items).contains t.categoryId))
    (fun g => actualKey db orgId items g == (item.categoryId, some item.type))
  refine hsum.trans ?_
  unfold Table.select
  rw [List.filter_filter, List.filter_filter]
  congr 2
  refine List.filter_congr fun row _ => ?_
  rw [Bool.eq_iff_iff]
  simp only [Bool.and_eq_true, beq_iff_eq]
  constructor
  · intro ⟨hkey, hrow, hcat⟩
    exact ⟨(actualKey_eq_iff hkeyed hitem (type_of_isActual hrow)).mp ⟨hkey, hcat⟩, hrow⟩
  · intro ⟨hfor, hrow⟩
    obtain ⟨hkey, hcat⟩ := (actualKey_eq_iff hkeyed hitem (type_of_isActual hrow)).mpr hfor
    exact ⟨hkey, hrow, hcat⟩

theorem mem_of_itemFor {cat : Nat} {type : TransactionType} {item : ForecastPlanItem}
    (h : itemFor db orgId items cat type = some item) : item ∈ items ∧ itemType type = some item.type := by
  obtain ⟨t, ht, h⟩ := Option.bind_eq_some_iff.mp h
  rcases Option.or_eq_some_iff.mp h with h | ⟨-, h⟩
  · exact ⟨mem_of_rowAt h, ht.trans (congrArg some (congrArg Prod.snd (key_of_rowAt h)).symm)⟩
  · obtain ⟨p, -, h⟩ := Option.bind_eq_some_iff.mp h
    exact ⟨mem_of_rowAt h, ht.trans (congrArg some (congrArg Prod.snd (key_of_rowAt h)).symm)⟩

/-- **The actuals of a plan are a partition.** Each row of the window counts in the one
item it belongs to, and the actuals of a type add up to the rows that belong to items of
that type. -/
theorem computeActuals_partition (db : Db) (orgId : Nat) (plan : ForecastPlan) (pStart : Int) (pEnd : Option Int)
    (currencyScope : Option CurrencyScope) :
    (∀ item ∈ plan.items, actualOf db orgId plan.items pStart pEnd currencyScope item =
      (((actualRows db orgId pStart pEnd currencyScope).filter (fun row =>
        itemFor db orgId plan.items row.2.categoryId row.2.type == some item)).map
          (fun row => (row.2.amount : Int))).sum) ∧
    ∀ type, ((plan.items.filter (fun i => i.type == type)).map
        (actualOf db orgId plan.items pStart pEnd currencyScope)).sum =
      (((actualRows db orgId pStart pEnd currencyScope).filter (fun row =>
        (itemFor db orgId plan.items row.2.categoryId row.2.type).isSome && itemType row.2.type == some type)).map
          (fun row => (row.2.amount : Int))).sum := by
  refine ⟨fun item hitem => actualOf_eq plan.keyed hitem, fun type => ?_⟩
  have hitems : (plan.items.filter (fun i => i.type == type)).Nodup := (List.Nodup.of_map _ plan.keyed).filter _
  rw [List.map_congr_left fun item hitem => actualOf_eq plan.keyed (List.mem_of_mem_filter hitem), sum_fibers hitems]
  congr 2
  refine List.filter_congr fun row _ => ?_
  rw [Bool.eq_iff_iff]
  rcases hfor : itemFor db orgId plan.items row.2.categoryId row.2.type with _ | item
  · simp
  · obtain ⟨hmem, htype⟩ := mem_of_itemFor hfor
    simp [htype, hmem]

/-! An org in euros keeps an account in dollars. -/

private def travelDb : Db where
  organizations := Table.empty.insert { primaryCurrency := some "EUR" }
  accounts := (Table.empty.insert { orgId := 1, name := "Checking" }).insert
    { orgId := 1, name := "Travel", currency := "USD" }
  categories := Table.empty.insert { orgId := 1, name := "Hotels" }
  transactions := Table.empty.insert
    { orgId := 1, accountId := 2, categoryId := 1, description := "Hotel", amount := ⟨9900, by decide⟩, type := .expense
      date := 739000, settledDate := some 739000 }

private def travelItem : ForecastPlanItem where
  categoryId := 1
  type := .expense
  plannedAmount := 20000
  source := .manual

/-- A settled, reportable expense of the item's own category in the plan's window, on the
account in dollars: it counts in no item. -/
theorem actual_other_currency :
    (∃ row ∈ travelDb.transactions.rows, isActual travelDb 1 738990 (some 739020) none row = true ∧
      itemFor travelDb 1 [travelItem] row.2.categoryId row.2.type = some travelItem) ∧
    actualOf travelDb 1 [travelItem] 738990 (some 739020) (some (resolveCurrencyScope travelDb 1)) travelItem = 0 := by
  decide +kernel

end BetterDecision
