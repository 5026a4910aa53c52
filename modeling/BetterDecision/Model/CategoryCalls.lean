import BetterDecision.Model.Categories

/-!
# Category calls

The writes of single plan items, the seed of a new org, and every operation that can touch
the tree or a row on it, as one type.
-/

namespace BetterDecision

namespace CategoryDb

/-! ## Plan items -/

def findPlan (db : CategoryDb) (orgId planId : Nat) : Result PlanRow :=
  found ((db.plans.get? planId).filter (fun p => p.orgId == orgId)) (.notFound "Forecast plan")

/-- Load the org's plan and write what becomes of it. -/
def editPlan (db : CategoryDb) (orgId planId : Nat) (f : ForecastPlan → Result ForecastPlan) : Result CategoryDb := do
  let row ← db.findPlan orgId planId
  let plan ← f row.plan
  .ok { db with plans := db.plans.modify planId (fun p => { p with plan }) }

/-- `ForecastItemType.value`. -/
def itemTypeValue : ForecastItemType → String
  | .income => "income"
  | .expense => "expense"

/-- `_category_type_matches` of a plan item. -/
def itemTypeMatches : CategoryType → ForecastItemType → Bool
  | .both, _ => true
  | .income, .income => true
  | .expense, .expense => true
  | _, _ => false

/-- The category is the org's, a master unless the org plans by subcategory, and takes the
item's type. -/
def validateCategoryGranularity (db : CategoryDb) (orgId categoryId : Nat) (type : ForecastItemType) : Result Unit := do
  let cat ← found (findCategory db.books orgId categoryId) (.validation "Invalid category")
  refuse (¬ subcategoryMode db.books orgId ∧ cat.parentId ≠ none)
    (.validation "Forecast plan items must use master categories, not subcategories")
  refuse (¬ itemTypeMatches cat.type type)
    (.validation s!"Category type ({cat.type.value}) does not match forecast item type ({itemTypeValue type})")

structure ItemWrite where
  categoryId : Nat
  type : ForecastItemType
  plannedAmount : Int

/-- The item as a user writes it. -/
def ItemWrite.item (w : ItemWrite) : ForecastPlanItem :=
  { categoryId := w.categoryId, type := w.type, plannedAmount := w.plannedAmount, source := .manual }

/-- Add the item, or set the one of its category and type. -/
def putItem (items : List ForecastPlanItem) (w : ItemWrite) : List ForecastPlanItem :=
  if items.any (fun i => i.key == w.item.key) then
    items.map (fun i => if i.key = w.item.key then w.item else i)
  else items ++ [w.item]

def upsertItem (db : CategoryDb) (orgId planId : Nat) (w : ItemWrite) : Result CategoryDb :=
  db.editPlan orgId planId (fun plan => do
    requireDraft plan
    validateCategoryGranularity db orgId w.categoryId w.type
    plan.withItems (putItem plan.items w))

/-- The category of a bulk row is not there, or not of the granularity the org plans by. -/
def invalidCategory (db : CategoryDb) (orgId categoryId : Nat) : Bool :=
  match findCategory db.books orgId categoryId with
  | none => true
  | some cat => !subcategoryMode db.books orgId && cat.parentId.isSome

def checkItemType (db : CategoryDb) (orgId : Nat) (w : ItemWrite) : Result Unit := do
  let cat ← found (findCategory db.books orgId w.categoryId) (.runtime "KeyError")
  refuse (¬ itemTypeMatches cat.type w.type)
    (.validation (s!"Category type ({cat.type.value}) does not match " ++
      s!"forecast item type ({itemTypeValue w.type}) for category_id={w.categoryId}"))

/-- All the rows or none: the categories of all are looked at before any is written. -/
def bulkUpsert (db : CategoryDb) (orgId planId : Nat) (ws : List ItemWrite) : Result CategoryDb :=
  db.editPlan orgId planId (fun plan => do
    requireDraft plan
    let invalid := ((ws.map (·.categoryId)).filter (db.invalidCategory orgId)).eraseDups.insertionSort (· ≤ ·)
    refuse (invalid ≠ []) (.validation s!"Invalid or wrong-granularity category IDs: {invalid}")
    let _ ← ws.mapM (db.checkItemType orgId)
    plan.withItems (ws.foldl putItem plan.items))

/-- Within a plan an item is told by its category and type, so by these here. -/
def findItem (plan : ForecastPlan) (key : ItemKey) : Result ForecastPlanItem :=
  found (plan.items.find? (fun i => i.key == key)) (.notFound "Forecast plan item")

def updateItem (db : CategoryDb) (orgId planId : Nat) (key : ItemKey) (plannedAmount : Int) : Result CategoryDb :=
  db.editPlan orgId planId (fun plan => do
    requireDraft plan
    let _ ← findItem plan key
    plan.withItems (plan.items.map (fun i => if i.key = key then { i with plannedAmount, source := .manual } else i)))

def deleteItem (db : CategoryDb) (orgId planId : Nat) (key : ItemKey) : Result CategoryDb :=
  db.editPlan orgId planId (fun plan => do
    requireDraft plan
    let _ ← findItem plan key
    plan.withItems (plan.items.filter (fun i => i.key != key)))

/-! ## Plans -/

def activatePlan (db : CategoryDb) (orgId planId : Nat) : Result CategoryDb :=
  db.editPlan orgId planId (fun plan => do
    requireDraft plan
    refuse (plan.items = []) (.validation "Cannot activate an empty plan")
    .ok { plan with status := .active })

def revertToDraft (db : CategoryDb) (orgId planId : Nat) : Result CategoryDb :=
  db.editPlan orgId planId (fun plan => do
    refuse (plan.status ≠ .active) (.validation "Plan is already a draft")
    .ok { plan with status := .draft })

def discardPlan (db : CategoryDb) (orgId planId : Nat) : Result CategoryDb :=
  db.editPlan orgId planId (fun plan => do
    requireDraft plan
    .ok { keyed := no_items_keyed })

/-- The row of the org's plan for a period. -/
def planRowOf (db : CategoryDb) (orgId periodId : Nat) : Option (Nat × PlanRow) :=
  (db.plans.select (fun _ p => p.orgId == orgId && p.periodId == periodId)).head?

def plansOf (db : CategoryDb) (orgId : Nat) : Plans :=
  fun periodId => (db.planRowOf orgId periodId).map (·.2.plan)

def setPlan (db : CategoryDb) (orgId periodId : Nat) (plan : ForecastPlan) : CategoryDb :=
  match db.planRowOf orgId periodId with
  | some (planId, _) => { db with plans := db.plans.modify planId (fun p => { p with plan }) }
  | none => { db with plans := db.plans.insert { orgId, periodId, plan } }

/-- The plan of a period, an empty draft if there was none. -/
def getOrCreatePlan (db : CategoryDb) (orgId periodId : Nat) : Result CategoryDb := do
  let _ ← findPeriod db.books orgId periodId
  .ok (db.setPlan orgId periodId (planAt (db.plansOf orgId) periodId))

/-- Populate, refresh or copy. -/
def writePlan (roundedMean : Int → Nat → Int) (db : CategoryDb) (orgId : Nat) (call : PlanCall) :
    Result CategoryDb := do
  let plan ← planAfter db.books orgId roundedMean (db.plansOf orgId) call
  .ok (db.setPlan orgId call.target plan)

/-! ## The seed -/

/-- A category of the starter set, without its description. -/
structure CategoryDef where
  slug : String
  name : String

structure MasterDef extends CategoryDef where
  type : CategoryType
  children : List CategoryDef := []

/-- `SYSTEM_CATEGORIES`. -/
def systemCategories : List MasterDef :=
  [{ slug := "income", name := "Income", type := .income
     children := [⟨"paycheck", "Paycheck/Salary"⟩, ⟨"side_hustles", "Side Hustles"⟩, ⟨"bonuses", "Bonuses"⟩,
       ⟨"interest_dividends", "Interest/Dividends"⟩, ⟨"tax_refunds", "Tax Refunds"⟩] },
   { slug := "housing", name := "Housing", type := .expense
     children := [⟨"rent_mortgage", "Rent/Mortgage"⟩, ⟨"property_taxes", "Property Taxes"⟩,
       ⟨"home_insurance", "Home Insurance"⟩, ⟨"hoa_fees", "HOA Fees"⟩, ⟨"home_repairs", "Repairs/Maintenance"⟩] },
   { slug := "utilities", name := "Utilities", type := .expense
     children := [⟨"electricity", "Electricity"⟩, ⟨"water", "Water"⟩, ⟨"gas_utility", "Gas"⟩,
       ⟨"internet", "Internet"⟩, ⟨"phone", "Phone"⟩, ⟨"trash", "Trash/Recycling"⟩] },
   { slug := "food_dining", name := "Food & Dining", type := .expense
     children := [⟨"groceries", "Groceries"⟩, ⟨"restaurants", "Restaurants"⟩, ⟨"coffee_shops", "Coffee Shops"⟩,
       ⟨"fast_food", "Fast Food/Takeout"⟩] },
   { slug := "transportation", name := "Transportation", type := .expense
     children := [⟨"fuel", "Fuel/Gas"⟩, ⟨"car_payments", "Car Payments"⟩, ⟨"auto_insurance", "Auto Insurance"⟩,
       ⟨"public_transit", "Public Transit"⟩, ⟨"car_maintenance", "Maintenance/Repairs"⟩,
       ⟨"parking_tolls", "Parking/Tolls"⟩] },
   { slug := "health", name := "Health & Wellness", type := .expense
     children := [⟨"health_insurance", "Health Insurance"⟩, ⟨"doctor_visits", "Doctor Visits/Copays"⟩,
       ⟨"pharmacy", "Pharmacy/Meds"⟩, ⟨"gym", "Gym Membership"⟩, ⟨"dental_vision", "Dental/Vision"⟩] },
   { slug := "personal_care", name := "Personal Care", type := .expense
     children := [⟨"haircuts", "Haircuts"⟩, ⟨"toiletries", "Toiletries"⟩, ⟨"clothing", "Clothing"⟩,
       ⟨"shoes", "Shoes"⟩, ⟨"laundry", "Laundry/Dry Cleaning"⟩] },
   { slug := "lifestyle", name := "Lifestyle & Fun", type := .expense
     children := [⟨"streaming", "Streaming Services"⟩, ⟨"entertainment", "Movies/Concerts"⟩,
       ⟨"hobbies", "Hobbies"⟩, ⟨"travel", "Travel/Vacation"⟩, ⟨"books_media", "Books/Media"⟩] },
   { slug := "financial_goals", name := "Financial Goals", type := .expense
     children := [⟨"emergency_fund", "Emergency Fund"⟩, ⟨"retirement", "Retirement (401k/IRA)"⟩,
       ⟨"general_savings", "General Savings"⟩, ⟨"investments", "Brokerage Investments"⟩] },
   { slug := "debt", name := "Debt Repayment", type := .expense
     children := [⟨"credit_card_debt", "Credit Cards"⟩, ⟨"student_loans", "Student Loans"⟩,
       ⟨"personal_loans", "Personal Loans"⟩] },
   { slug := "giving", name := "Giving & Gifts", type := .expense
     children := [⟨"donations", "Charitable Donations"⟩, ⟨"gifts", "Birthday/Holiday Gifts"⟩] },
   { slug := "miscellaneous", name := "Miscellaneous", type := .expense
     children := [⟨"bank_fees", "Bank Fees"⟩, ⟨"taxes_other", "Taxes (Non-Property)"⟩,
       ⟨"uncategorized", "Uncategorized/Unexpected"⟩] }]

/-- `STANDALONE_SYSTEM_CATEGORIES`. -/
def standaloneSystemCategories : List MasterDef :=
  [{ slug := transferSlug, name := "Transfer", type := .both },
   { slug := "credit_card_payment", name := "Credit Card Payment", type := .both }]

/-- The system category the seed writes. -/
def systemCategory (orgId : Nat) (d : CategoryDef) (type : CategoryType) (parentId : Option Nat) : Category :=
  { orgId, name := d.name, slug := some d.slug, type, parentId, isSystem := true }

/-- The system slugs the org has before the seed. -/
def systemSlugs (categories : Table Category) (orgId : Nat) : List (Option String) :=
  (categories.select (fun _ c => c.orgId == orgId && c.isSystem)).map (·.2.slug)

/-- The master, inserted unless its slug is there, and its id. -/
def seedMasterRow (orgId : Nat) (existing : List (Option String)) (categories : Table Category) (d : MasterDef) :
    Table Category × Option Nat :=
  if some d.slug ∈ existing then
    (categories, ((categories.select (fun _ c =>
      c.orgId == orgId && c.slug == some d.slug && c.isSystem)).map Prod.fst).head?)
  else (categories.insert (systemCategory orgId d.toCategoryDef d.type none), some categories.next)

/-- A master and its children, those that are missing. -/
def seedMaster (orgId : Nat) (existing : List (Option String)) (categories : Table Category) (d : MasterDef) :
    Table Category :=
  let (categories, masterId) := seedMasterRow orgId existing categories d
  (d.children.filter (fun c => some c.slug ∉ existing)).foldl
    (fun categories c => categories.insert (systemCategory orgId c d.type masterId)) categories

/-- The categories of `seed_org_defaults`. -/
def seedOrgDefaults (db : CategoryDb) (orgId : Nat) : CategoryDb :=
  let existing := systemSlugs db.books.categories orgId
  { db with
    books := { db.books with
      categories := (systemCategories ++ standaloneSystemCategories).foldl (seedMaster orgId existing)
        db.books.categories } }

end CategoryDb

/-! ## Calls -/

inductive CategoryCall
  | ledger (call : Call)
  | createCategory (orgId : Nat) (body : CategoryDb.CategoryCreate)
  | updateCategory (orgId id : Nat) (body : CategoryDb.CategoryUpdate)
  | moveSubcategory (orgId subcategoryId targetParentId : Nat)
  | batchMove (orgId : Nat) (moves : List (Nat × Nat))
  | deleteCategory (orgId id : Nat) (targetId : Option Nat)
  | getOrCreatePlan (orgId periodId : Nat)
  | writePlan (orgId : Nat) (call : PlanCall)
  | upsertItem (orgId planId : Nat) (w : CategoryDb.ItemWrite)
  | bulkUpsert (orgId planId : Nat) (ws : List CategoryDb.ItemWrite)
  | updateItem (orgId planId : Nat) (key : ItemKey) (plannedAmount : Int)
  | deleteItem (orgId planId : Nat) (key : ItemKey)
  | activatePlan (orgId planId : Nat)
  | revertToDraft (orgId planId : Nat)
  | discardPlan (orgId planId : Nat)
  /-- Whatever else is written: the tables that name no category's type are as given. -/
  | elsewhere (other : CategoryDb)

section Handle

variable (normalizeCategoryName : String → String) (roundedMean : Int → Nat → Int)

def handleCategory (db : CategoryDb) : CategoryCall → Result CategoryDb
  | .ledger call => do
    let books ← handle db.books call
    .ok { db with books }
  | .createCategory orgId body => db.createCategory orgId body
  | .updateCategory orgId id body => db.updateCategory orgId id body
  | .moveSubcategory orgId subcategoryId targetParentId =>
    CategoryDb.moveSubcategory normalizeCategoryName db orgId subcategoryId targetParentId
  | .batchMove orgId moves => CategoryDb.batchMoveSubcategories normalizeCategoryName db orgId moves
  | .deleteCategory orgId id targetId => db.deleteCategoryWithMigration orgId id targetId
  | .getOrCreatePlan orgId periodId => db.getOrCreatePlan orgId periodId
  | .writePlan orgId call => CategoryDb.writePlan roundedMean db orgId call
  | .upsertItem orgId planId w => db.upsertItem orgId planId w
  | .bulkUpsert orgId planId ws => db.bulkUpsert orgId planId ws
  | .updateItem orgId planId key plannedAmount => db.updateItem orgId planId key plannedAmount
  | .deleteItem orgId planId key => db.deleteItem orgId planId key
  | .activatePlan orgId planId => db.activatePlan orgId planId
  | .revertToDraft orgId planId => db.revertToDraft orgId planId
  | .discardPlan orgId planId => db.discardPlan orgId planId
  | .elsewhere other =>
    .ok { db with
      books := { other.books with
        categories := db.books.categories, transactions := db.books.transactions
        recurring := db.books.recurring, spends := db.books.spends, pairings := db.books.pairings }
      categoryRules := other.categoryRules, planLinks := other.planLinks }

end Handle

end BetterDecision
