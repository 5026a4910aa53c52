import BetterDecision.Model.Calls
import BetterDecision.Model.ForecastPlan

/-!
# The category tree

`category_service`, the category routes and the writes of single plan items. A category is
a master or sits under one. Whether its type still fits is asked from two sides: here, when
a category changes its type, moves or hands its rows on; and by `validateCategoryForType`
and its like, when a row names a category.

`normalize_category_name` lower-cases and splits over all of Unicode and decides nothing but
name collisions, so it is a parameter.
-/

namespace BetterDecision

/-- A learned auto-categorization rule. -/
structure CategoryRule where
  orgId : Nat
  normalizedToken : String
  categoryId : Nat

/-- A plan or a plan goal, as far as it names a category. -/
structure PlanLink where
  orgId : Nat
  categoryId : Option Nat

/-- A forecast plan with its org and its billing period. -/
structure PlanRow where
  orgId : Nat
  periodId : Nat
  plan : ForecastPlan

structure CategoryDb where
  books : Db := {}
  plans : Table PlanRow := .empty
  categoryRules : Table CategoryRule := .empty
  planLinks : Table PlanLink := .empty

namespace CategoryDb

/-- The plan items of an org that pass a test. -/
def countPlanItems (db : CategoryDb) (orgId : Nat) (test : ForecastPlanItem → Bool) : Nat :=
  ((db.plans.select (fun _ p => p.orgId == orgId)).map (fun p => (p.2.plan.items.filter test).length)).sum

def countTransactions (db : CategoryDb) (orgId categoryId : Nat) (types : List TransactionType) : Nat :=
  (db.books.transactions.select
    (fun _ t => t.orgId == orgId && t.categoryId == categoryId && types.contains t.type)).length

def countRecurring (db : CategoryDb) (orgId categoryId : Nat) (types : List TransactionType) : Nat :=
  (db.books.recurring.select
    (fun _ r => r.orgId == orgId && r.categoryId == categoryId && types.contains r.type)).length

def countItems (db : CategoryDb) (orgId categoryId : Nat) (types : List ForecastItemType) : Nat :=
  db.countPlanItems orgId (fun i => i.categoryId == categoryId && types.contains i.type)

def childrenOf (db : CategoryDb) (orgId categoryId : Nat) : List (Nat × Category) :=
  db.books.categories.select (fun _ c => c.parentId == some categoryId && c.orgId == orgId)

/-! ## Changing a type -/

/-- The rows on a category that would not fit its new type. -/
structure Incompatible where
  transactions : Nat := 0
  recurring : Nat := 0
  items : Nat := 0

/-- `_count_incompatible_for_category`. A transfer template fits no one-sided type. -/
def countIncompatibleForCategory (db : CategoryDb) (orgId categoryId : Nat) (newType : CategoryType) :
    Incompatible :=
  match newType with
  | .expense =>
    { transactions := db.countTransactions orgId categoryId [.income]
      recurring := db.countRecurring orgId categoryId [.income, .transfer]
      items := db.countItems orgId categoryId [.income] }
  | .income =>
    { transactions := db.countTransactions orgId categoryId [.expense]
      recurring := db.countRecurring orgId categoryId [.expense, .transfer]
      items := db.countItems orgId categoryId [.expense] }
  | .both => {}

/-- A row of the category is a leg of a transfer: its partner links back. -/
def hasTransferLegReference (db : CategoryDb) (orgId categoryId : Nat) : Bool :=
  !(db.books.transactions.select (fun id t =>
    t.orgId == orgId && t.categoryId == categoryId &&
      t.linkedTransactionId.any (fun l => (db.books.transactions.get? l).any (fun p =>
        p.linkedTransactionId == some id && l != id && p.orgId == t.orgId)))).isEmpty

def plural (n : Nat) (noun : String) : String := if n = 1 then s!"{n} {noun}" else s!"{n} {noun}s"

/-- The counts that are not zero, in words. -/
def summary (parts : List String) : String :=
  match parts.reverse with
  | [] => ""
  | [one] => one
  | [second, first] => s!"{first} and {second}"
  | last :: rest => ", ".intercalate rest.reverse ++ ", and " ++ last

/-- A master takes its children along, so their rows have to fit, too. -/
def validateCategoryTypeChange (db : CategoryDb) (id : Nat) (cat : Category) (newType : CategoryType) :
    Result Unit :=
  if newType = cat.type ∨ newType = .both then .ok ()
  else do
    refuse (cat.type = .both ∧ db.hasTransferLegReference cat.orgId id)
      (.validation ("Cannot change category type: this category is referenced " ++
        "by a transfer pair, which requires both income and expense."))
    let children := if cat.parentId = none then (db.childrenOf cat.orgId id).map Prod.fst else []
    refuse (cat.type = .both ∧ cat.parentId = none ∧ ∃ c ∈ children, db.hasTransferLegReference cat.orgId c)
      (.validation ("Cannot change category type: a child category is referenced by a transfer pair, " ++
        "which requires both income and expense."))
    let counts := (id :: children).map (fun c => db.countIncompatibleForCategory cat.orgId c newType)
    let transactions := (counts.map (·.transactions)).sum
    let recurring := (counts.map (·.recurring)).sum
    let items := (counts.map (·.items)).sum
    let parts :=
      (if transactions = 0 then [] else [plural transactions "transaction"]) ++
        (if recurring = 0 then [] else [plural recurring "recurring template"]) ++
        (if items = 0 then [] else [plural items "forecast plan item"])
    refuse (¬ (transactions = 0 ∧ recurring = 0 ∧ items = 0))
      (.validation (s!"Cannot change category type to {newType.value}: " ++
        s!"{summary parts} reference this category with an incompatible type."))

/-! ## The floor -/

/-- The masters of a type. -/
def countMasters (db : CategoryDb) (orgId : Nat) (type : CategoryType) : Nat :=
  (db.books.categories.select
    (fun _ c => c.orgId == orgId && c.parentId.isNone && c.type == type)).length

/-- The subcategories under masters of a type, whatever their own. -/
def countSubs (db : CategoryDb) (orgId : Nat) (type : CategoryType) : Nat :=
  (db.books.categories.select (fun _ c =>
    c.orgId == orgId &&
      c.parentId.any (fun p => (db.books.categories.get? p).any (fun m => m.orgId == orgId && m.type == type)))).length

structure FloorCounts where
  incomeMasters : Nat
  incomeSubs : Nat
  expenseMasters : Nat
  expenseSubs : Nat

/-- `_floor_counts_for_org`. -/
def floorCountsForOrg (db : CategoryDb) (orgId : Nat) : FloorCounts where
  incomeMasters := db.countMasters orgId .income
  incomeSubs := db.countSubs orgId .income
  expenseMasters := db.countMasters orgId .expense
  expenseSubs := db.countSubs orgId .expense

/-- A master has gone, or has changed its type, and its children with it. -/
def assertMasterFloor (masters subs children : Nat) (lastMaster lastSub : ServiceError) : Result Unit := do
  refuse (masters ≤ 1) lastMaster
  refuse (subs < children + 1) lastSub

def assertMinFloorAfterDelete (db : CategoryDb) (orgId id : Nat) (category : Category) : Result Unit :=
  let counts := db.floorCountsForOrg orgId
  let last := ServiceError.conflict "last_in_type"
  match category.parentId with
  | none =>
    let children := (db.childrenOf orgId id).length
    match category.type with
    | .income => do
      refuse (counts.incomeMasters ≤ 1) last
      -- without a subcategory to lose, a master may go
      refuse (children ≥ counts.incomeSubs ∧ counts.incomeSubs > 0 ∧ counts.incomeSubs < children + 1) last
    | .expense => assertMasterFloor counts.expenseMasters counts.expenseSubs children last last
    | .both => .ok ()
  | some parentId =>
    match findCategory db.books orgId parentId with
    | none => .ok ()
    | some master =>
      match master.type with
      | .income => refuse (counts.incomeSubs ≤ 1) last
      | .expense => refuse (counts.expenseSubs ≤ 1) last
      | .both => .ok ()

def assertMinFloorAfterTypeChange (db : CategoryDb) (orgId id : Nat) (category : Category)
    (newType : CategoryType) : Result Unit :=
  if newType = category.type ∨ category.type = .both then .ok ()
  else
    let counts := db.floorCountsForOrg orgId
    let violation (scope : String) (type : CategoryType) := ServiceError.conflict s!"floor_violation::{scope}::{type.value}"
    match category.parentId with
    | none =>
      let children := (db.childrenOf orgId id).length
      let lastMaster := violation "master" category.type
      let lastSub := violation "subcategory" category.type
      match category.type with
      | .income => assertMasterFloor counts.incomeMasters counts.incomeSubs children lastMaster lastSub
      | .expense => assertMasterFloor counts.expenseMasters counts.expenseSubs children lastMaster lastSub
      | .both => .ok ()
    | some parentId =>
      match findCategory db.books orgId parentId with
      | none => .ok ()
      | some master =>
        match master.type with
        | .income => refuse (newType ≠ .income ∧ counts.incomeSubs ≤ 1) (violation "subcategory" .income)
        | .expense => refuse (newType ≠ .expense ∧ counts.expenseSubs ≤ 1) (violation "subcategory" .expense)
        | .both => .ok ()

/-! ## Creating and updating -/

structure CategoryCreate where
  name : String
  type : CategoryType := .both
  parentId : Option Nat := none

def insertCategory (db : CategoryDb) (c : Category) : CategoryDb :=
  { db with books := { db.books with categories := db.books.categories.insert c } }

/-- A child inherits its parent's type, whatever was asked for. -/
def effectiveType (db : CategoryDb) (orgId : Nat) (body : CategoryCreate) : Result CategoryType :=
  match body.parentId with
  | none => .ok body.type
  | some parentId => do
    let parent ← found (findCategory db.books orgId parentId) (.validation "Invalid parent category")
    refuse (parent.parentId ≠ none) (.validation "Cannot nest more than two levels")
    .ok parent.type

def createCategory (db : CategoryDb) (orgId : Nat) (body : CategoryCreate) : Result CategoryDb := do
  let type ← effectiveType db orgId body
  .ok (db.insertCategory { orgId, name := body.name, type, parentId := body.parentId })

structure CategoryUpdate where
  name : Option String := none
  type : Option CategoryType := none

/-- A subcategory's type changes only to its parent's. -/
def refuseSubcategoryType (db : CategoryDb) (orgId : Nat) (cat : Category) (body : CategoryUpdate) : Result Unit :=
  match cat.parentId, body.type with
  | some parentId, some type =>
    refuse (type ≠ cat.type ∧ (findCategory db.books orgId parentId).map (·.type) ≠ some type)
      (.validation "Subcategory type must match its parent. Update the master category instead.")
  | _, _ => .ok ()

/-- The category and, if it is a master, its children take the type. -/
def setCategoryType (db : CategoryDb) (orgId id : Nat) (cat : Category) (newType : CategoryType) : CategoryDb :=
  { db with
    books := { db.books with
      categories := db.books.categories.mapRows (fun i c =>
        if i = id ∨ cat.parentId = none ∧ c.parentId = some id ∧ c.orgId = orgId
        then { c with type := newType } else c) } }

def renameCategory (db : CategoryDb) (id : Nat) (name : Option String) : CategoryDb :=
  { db with
    books := { db.books with
      categories := db.books.categories.modify id (fun c => { c with name := name.getD c.name }) } }

def updateCategory (db : CategoryDb) (orgId id : Nat) (body : CategoryUpdate) : Result CategoryDb := do
  let cat ← found (findCategory db.books orgId id) (.notFound "Category")
  refuseSubcategoryType db orgId cat body
  match body.type with
  | none => .ok (db.renameCategory id body.name)
  | some newType =>
    if newType = cat.type then .ok (db.renameCategory id body.name)
    else do
      validateCategoryTypeChange db id cat newType
      assertMinFloorAfterTypeChange db orgId id cat newType
      .ok ((db.setCategoryType orgId id cat newType).renameCategory id body.name)

/-! ## Moving -/

section Move

variable (normalizeCategoryName : String → String)

/-- The subcategory and its target master, if the one may move under the other. -/
def resolveForMove (db : CategoryDb) (orgId subcategoryId targetParentId : Nat) : Result (Category × Category) := do
  let sub ← found (findCategory db.books orgId subcategoryId) (.notFound "Category")
  let sourceMaster ← found sub.parentId
    (.validation "Cannot move a master category. Only subcategories can be moved.")
  let target ← found (findCategory db.books orgId targetParentId) (.notFound "Target category")
  refuse (target.parentId ≠ none) (.validation "Move target must be a master category (top-level).")
  refuse (targetParentId = sourceMaster)
    (.validation "Subcategory is already under this master; the move is a no-op.")
  refuse (sub.type ≠ target.type)
    (.validation (s!"type_mismatch: source subcategory is {sub.type.value}, " ++
      s!"target master is {target.type.value}."))
  let _ ← found (findCategory db.books orgId sourceMaster) (.notFound "Source master")
  let normalized := normalizeCategoryName sub.name
  match (db.childrenOf orgId targetParentId).filter
      (fun c => c.1 != subcategoryId && normalizeCategoryName c.2.name == normalized) with
  | [] => .ok (sub, target)
  | (siblingId, sibling) :: _ =>
    .error (.conflict s!"name_collision::{targetParentId}::{siblingId}::{sibling.name}::{normalized}")

def setParent (db : CategoryDb) (move : Nat × Nat) : CategoryDb :=
  { db with
    books := { db.books with
      categories := db.books.categories.modify move.1 (fun c => { c with parentId := some move.2 }) } }

def moveSubcategory (db : CategoryDb) (orgId subcategoryId targetParentId : Nat) : Result CategoryDb := do
  let _ ← resolveForMove normalizeCategoryName db orgId subcategoryId targetParentId
  .ok (db.setParent (subcategoryId, targetParentId))

/-- One item of a batch: resolved on the tree as it is before the batch, and compared by
name with the items before it. -/
def resolveItem (db : CategoryDb) (orgId : Nat) (seen : List ((Nat × String) × Nat)) (move : Nat × Nat) :
    Result (List ((Nat × String) × Nat)) := do
  let (sub, _) ← resolveForMove normalizeCategoryName db orgId move.1 move.2
  let key := (move.2, normalizeCategoryName sub.name)
  match seen.find? (fun e => e.1 == key) with
  | some (_, other) => .error (.conflict s!"name_collision::{move.2}::{other}::{sub.name}::{key.2}")
  | none => .ok ((key, move.1) :: seen)

def batchMoveSubcategories (db : CategoryDb) (orgId : Nat) (moves : List (Nat × Nat)) : Result CategoryDb := do
  refuse (moves = []) (.validation "No moves provided")
  let _ ← moves.foldlM (resolveItem normalizeCategoryName db orgId) []
  .ok (moves.foldl setParent db)

end Move

/-! ## Deleting -/

/-- The rows on a category. The first two counts weigh them by side; a transfer template
is on both. -/
structure DependentBreakdown where
  incomeCount : Nat
  expenseCount : Nat
  transactionCount : Nat
  recurringCount : Nat
  forecastItemCount : Nat
  planLinkCount : Nat

def DependentBreakdown.total (b : DependentBreakdown) : Nat :=
  b.transactionCount + b.recurringCount + b.forecastItemCount + b.planLinkCount

def dependentBreakdown (db : CategoryDb) (orgId categoryId : Nat) : DependentBreakdown :=
  let tx (type : TransactionType) := db.countTransactions orgId categoryId [type]
  let rec' (type : TransactionType) := db.countRecurring orgId categoryId [type]
  let fpi (type : ForecastItemType) := db.countItems orgId categoryId [type]
  { incomeCount := tx .income + rec' .income + rec' .transfer + fpi .income
    expenseCount := tx .expense + rec' .expense + rec' .transfer + fpi .expense
    transactionCount := tx .income + tx .expense
    recurringCount := rec' .income + rec' .expense + rec' .transfer
    forecastItemCount := fpi .income + fpi .expense
    planLinkCount := (db.planLinks.select (fun _ l => l.orgId == orgId && l.categoryId == some categoryId)).length }

/-- A one-sided source goes by its type, a source that takes both by the rows on it. -/
def checkTargetCompatibilityForDelete (source target : Category) (b : DependentBreakdown) : Result Unit :=
  let mismatch := ServiceError.validation (s!"type_mismatch::{source.type.value}::{target.type.value}::" ++
    s!"{b.incomeCount}::{b.expenseCount}")
  if source.type ≠ .both then do
    refuse (source.type = .income ∧ target.type = .expense) mismatch
    refuse (source.type = .expense ∧ target.type = .income) mismatch
  else do
    refuse (0 < b.incomeCount ∧ b.expenseCount = 0 ∧ target.type = .expense) mismatch
    refuse (0 < b.expenseCount ∧ b.incomeCount = 0 ∧ target.type = .income) mismatch
    refuse (0 < b.incomeCount ∧ 0 < b.expenseCount ∧ target.type ≠ .both) mismatch

/-- The guards of a delete, in order. The target comes back if there are rows to migrate. -/
def planCategoryDelete (db : CategoryDb) (orgId id : Nat) (targetId : Option Nat) : Result (Option Nat) := do
  let cat ← found (findCategory db.books orgId id) (.notFound "Category")
  let children := db.childrenOf orgId id
  refuse (cat.parentId = none ∧ ¬ children.isEmpty)
    (.conflict ("has_children::" ++ ":".intercalate (children.map (fun c => s!"{c.1}|{c.2.name}"))))
  assertMinFloorAfterDelete db orgId id cat
  let b := db.dependentBreakdown orgId id
  if b.total = 0 then .ok none
  else do
    let targetId ← found targetId (.validation (s!"migration_target_required::{b.transactionCount}::" ++
      s!"{b.recurringCount}::{b.forecastItemCount}::{b.planLinkCount}"))
    refuse (targetId = id) (.validation "Migration target cannot equal the source category.")
    let target ← found (findCategory db.books orgId targetId)
      (.validation "Migration target not found in this org.")
    refuse (target.parentId = some id)
      (.validation "Migration target cannot be a descendant of the category being deleted.")
    checkTargetCompatibilityForDelete cat target b
    .ok (some targetId)

/-- An item once the category's are the target's. What folds into it comes on top. -/
def migratedItem (id targetId : Nat) (folded : ForecastItemType → Int) (i : ForecastPlanItem) : ForecastPlanItem :=
  if i.categoryId = id then { i with categoryId := targetId }
  else if i.categoryId = targetId then { i with plannedAmount := i.plannedAmount + folded i.type }
  else i

/-- The items of a plan after the move. An item whose type the target has already is
folded into that one. -/
def migrateItems (id targetId : Nat) (items : List ForecastPlanItem) : List ForecastPlanItem :=
  let folded (type : ForecastItemType) : Int :=
    ((items.filter (fun i => i.key == (id, type))).map (·.plannedAmount)).sum
  (items.filter (fun i => !(i.categoryId == id && items.any (fun j => j.key == (targetId, i.type))))).map
    (migratedItem id targetId folded)

/-- The category's rules that go along: one a token, and none the target has a rule for. -/
def partitionRulesForMigration (sourceRules : List (Nat × CategoryRule)) (targetTokens : List String) :
    List Nat :=
  (sourceRules.foldl (fun acc r =>
    if r.2.normalizedToken ∈ acc.2 then acc else (r.1 :: acc.1, r.2.normalizedToken :: acc.2))
    (([] : List Nat), targetTokens)).1

def rulesOf (db : CategoryDb) (categoryId : Nat) : List (Nat × CategoryRule) :=
  db.categoryRules.select (fun _ r => r.categoryId == categoryId)

/-- The category's rules: those in `migrated` go to the target, the others go. -/
def settleRules (db : CategoryDb) (id targetId : Nat) (migrated : List Nat) : Table CategoryRule :=
  let doomed := ((db.rulesOf id).map Prod.fst).filter (fun r => !migrated.contains r)
  (db.categoryRules.remove (doomed.contains ·)).mapRows (fun r rule =>
    if r ∈ migrated then { rule with categoryId := targetId } else rule)

theorem key_migratedItem (id targetId : Nat) (folded : ForecastItemType → Int) (i : ForecastPlanItem) :
    (migratedItem id targetId folded i).key = if i.categoryId = id then (targetId, i.type) else i.key := by
  unfold migratedItem
  split_ifs <;> rfl

theorem migrateItems_keyed (id targetId : Nat) {items : List ForecastPlanItem}
    (h : Keyed ForecastPlanItem.key items) : Keyed ForecastPlanItem.key (migrateItems id targetId items) := by
  unfold Keyed migrateItems
  rw [List.map_map]
  refine List.Nodup.map_on ?_ (List.Nodup.filter _ (List.Nodup.of_map _ h))
  -- a moved item lands on a key the target did not have
  have hapart : ∀ {x y : ForecastPlanItem}, y ∈ items → x.categoryId = id →
      (!(x.categoryId == id && items.any (fun j => j.key == (targetId, x.type)))) = true →
      y.key ≠ (targetId, x.type) := by
    intro x y hy hx hx' hkey
    have hany : items.any (fun j => j.key == (targetId, x.type)) = true :=
      List.any_eq_true.mpr ⟨y, hy, beq_iff_eq.mpr hkey⟩
    rw [hx, hany, beq_self_eq_true] at hx'
    cases hx'
  intro a ha b hb heq
  obtain ⟨ha, hna⟩ := List.mem_filter.mp ha
  obtain ⟨hb, hnb⟩ := List.mem_filter.mp hb
  rw [Function.comp_apply, Function.comp_apply, key_migratedItem, key_migratedItem] at heq
  by_cases hida : a.categoryId = id <;> by_cases hidb : b.categoryId = id
  · rw [if_pos hida, if_pos hidb] at heq
    exact h.eq_of_key ha hb (Prod.ext (hida.trans hidb.symm) (Prod.mk.inj heq).2)
  · rw [if_pos hida, if_neg hidb] at heq
    exact absurd heq.symm (hapart hb hida hna)
  · rw [if_neg hida, if_pos hidb] at heq
    exact absurd heq (hapart ha hidb hnb)
  · rw [if_neg hida, if_neg hidb] at heq
    exact h.eq_of_key ha hb heq

end CategoryDb

/-- The plan with the category's items moved to the target. -/
def ForecastPlan.migrate (plan : ForecastPlan) (id targetId : Nat) : ForecastPlan where
  status := plan.status
  items := CategoryDb.migrateItems id targetId plan.items
  keyed := CategoryDb.migrateItems_keyed id targetId plan.keyed

namespace CategoryDb

/-- Every row on the category moves to the target. -/
def migrateTo (db : CategoryDb) (orgId id targetId : Nat) : CategoryDb where
  books := { updateRows db.books orgId (fun _ t => t.categoryId == id) (fun t => { t with categoryId := targetId }) with
    recurring := db.books.recurring.mapRows (fun _ r =>
      if r.orgId = orgId ∧ r.categoryId = id then { r with categoryId := targetId } else r) }
  plans := db.plans.mapRows (fun _ p =>
    if p.orgId = orgId then { p with plan := p.plan.migrate id targetId } else p)
  planLinks := db.planLinks.mapRows (fun _ l =>
    if l.orgId = orgId ∧ l.categoryId = some id then { l with categoryId := some targetId } else l)
  categoryRules := db.settleRules id targetId
    (partitionRulesForMigration (db.rulesOf id) ((db.rulesOf targetId).map (·.2.normalizedToken)))

/-- The category goes, and its budgets. -/
def removeCategory (db : CategoryDb) (orgId id : Nat) : CategoryDb :=
  let budgets := (db.books.budgets.select (fun _ b => b.orgId == orgId && b.categoryId == id)).map Prod.fst
  { db with
    books := { db.books with
      categories := db.books.categories.remove (· == id)
      budgets := db.books.budgets.remove (budgets.contains ·) } }

def dropRules (db : CategoryDb) (categoryId : Nat) : CategoryDb :=
  { db with categoryRules := db.categoryRules.remove (((db.rulesOf categoryId).map Prod.fst).contains ·) }

def deleteCategoryWithMigration (db : CategoryDb) (orgId id : Nat) (targetId : Option Nat) : Result CategoryDb := do
  match ← planCategoryDelete db orgId id targetId with
  | none => .ok ((db.dropRules id).removeCategory orgId id)
  | some targetId => .ok ((db.migrateTo orgId id targetId).removeCategory orgId id)

end CategoryDb

end BetterDecision
