import BetterDecision.Lib.Keyed
import BetterDecision.Model.ForecastWindow

/-!
# Forecast plans

`forecast_plan_service`: the three writers of a plan's items that decide for the user.
`planPopulate` suggests items from the recurring series, the period's own rows and the
history (per group, R + max(H', B')); a refresh drops the generated items and populates
again; a copy carries another plan's items over.

The average of a history is rounded through a binary float. That rounding is the one
thing here that is not integer arithmetic on cents, so it is a parameter,
`roundedMean`. A plan's billing period has been resolved before the call. No stored
date lies in the calendar's first year, so a walk back never leaves the calendar.
-/

namespace BetterDecision

open Calendar

/-! ## Plans -/

inductive ForecastItemType
  | income
  | expense
  deriving DecidableEq, Repr

inductive ItemSource
  | manual
  | recurring
  | history
  deriving DecidableEq, Repr

inductive PlanStatus
  | draft
  | active
  deriving DecidableEq, Repr

structure ForecastPlanItem where
  categoryId : Nat
  type : ForecastItemType
  plannedAmount : Int
  source : ItemSource
  deriving DecidableEq, Repr

abbrev ItemKey := Nat × ForecastItemType

def ForecastPlanItem.key (i : ForecastPlanItem) : ItemKey := (i.categoryId, i.type)

theorem no_items_keyed : Keyed ForecastPlanItem.key [] := by decide

/-- The field is `uq_forecast_item_plan_cat_type`. -/
structure ForecastPlan where
  status : PlanStatus := .draft
  items : List ForecastPlanItem := []
  keyed : Keyed ForecastPlanItem.key items := by decide

/-- The unique constraint is tested when the items are flushed. -/
def ForecastPlan.withItems (plan : ForecastPlan) (items : List ForecastPlanItem) : Result ForecastPlan :=
  if keyed : Keyed ForecastPlanItem.key items then .ok { status := plan.status, items, keyed }
  else .error .integrity

/-- Raise if the plan is active (read-only). -/
def requireDraft (plan : ForecastPlan) : Result Unit :=
  refuse (plan.status = .active) (.validation "Cannot modify an active plan. Revert to draft first.")

/-! ## Groups -/

def subcategoryMode (db : Db) (orgId : Nat) : Bool :=
  (db.organizations.get? orgId).any (fun org => org.forecastInputGranularity == some "subcategory")

/-- `cat_to_master.get(cat, cat)`. -/
def masterOf (db : Db) (orgId cat : Nat) : Nat :=
  ((findCategory db orgId cat).bind (·.parentId)).getD cat

/-- A master item rolls its subs up; in subcategory mode a group is one category. -/
def groupKey (db : Db) (orgId cat : Nat) : Nat :=
  if subcategoryMode db orgId then cat else masterOf db orgId cat

/-- Items are income or expense; a transfer has no group. -/
def itemType : TransactionType → Option ForecastItemType
  | .income => some .income
  | .expense => some .expense
  | .transfer => none

/-- The group of a row of this category and type. -/
def groupOf (db : Db) (orgId cat : Nat) (type : TransactionType) : Option ItemKey :=
  (itemType type).map (fun t => (groupKey db orgId cat, t))

/-! ## History already covered by a template -/

/-- `datetime.date.weekday`, Monday being 0. -/
def weekday (d : Int) : Int := (d + 6) % 7

/-- How many occurrences the template's grid puts in a month. -/
def templateOccurrencesInMonth (r : RecurringTransaction) (month : Int) : Int :=
  let anchor := r.nextDueDate
  let first := onMonth month 1
  match r.frequency with
  | .weekly => (monthLength month - (weekday anchor - weekday first) % 7 + 6) / 7
  | .biweekly => (monthLength month - (anchor - first) % 14 + 13) / 14
  | .quarterly => if (month - monthOf anchor) % 3 = 0 then 1 else 0
  | .yearly => if (month - monthOf anchor) % 12 = 0 then 1 else 0
  | .monthly => 1

/-- `k` whole steps back from the frontier, not iterated. -/
def slotBefore (freq : Frequency) (anchor : Int) (k : Int) : Int :=
  match freq with
  | .weekly => anchor - 7 * k
  | .biweekly => anchor - 14 * k
  | .monthly => addMonths anchor (-k)
  | .quarterly => addMonths anchor (-(3 * k))
  | .yearly => addMonths anchor (-(12 * k))

/-- `_MAX_SLOT_WALK_STEPS`. -/
def maxSlotWalkSteps : Nat := 600

/-- The walk back from step `k` on. -/
def openSlotFrom (freq : Frequency) (anchor pStart pEnd : Int) (held : Int → Bool) : Nat → Int → Bool
  | 0, _ => false
  | fuel + 1, k =>
    let d := slotBefore freq anchor k
    if d < pStart then false
    else if d ≤ pEnd && !held d then true
    else openSlotFrom freq anchor pStart pEnd held fuel (k + 1)

/-- The grid has a slot in the period before the frontier that no row holds: the
template starts after a slot the user pays by hand. -/
def hasOpenSlotBeforeFrontier (r : RecurringTransaction) (pStart pEnd : Int) (held : Int → Bool) : Bool :=
  openSlotFrom r.frequency r.nextDueDate pStart pEnd held maxSlotWalkSteps 1

/-- A settled row without a series in the three months before the period, under the month
it counts in and the month it was due. -/
structure HistoryRow where
  categoryId : Nat
  accountId : Nat
  amount : Int
  effMonth : Int
  dueMonth : Int

/-- The row looks like an occurrence of the template, within ten percent. -/
def matchesTemplate (r : RecurringTransaction) (row : HistoryRow) : Bool :=
  row.categoryId == r.categoryId && row.accountId == r.accountId &&
    decide (10 * |row.amount - (r.amount : Int)| ≤ (r.amount : Int))

/-- The rows one template takes: the closest first, the earlier of two as close. -/
def closestMatches (r : RecurringTransaction) (cap : Nat) (rows : List (Nat × HistoryRow)) : List Nat :=
  let candidates := (rows.filter (fun p => matchesTemplate r p.2)).map
    (fun p => (|p.2.amount - (r.amount : Int)|, p.1))
  ((candidates.insertionSort (fun a b => a.1 < b.1 ∨ a.1 = b.1 ∧ a.2 ≤ b.2)).take cap).map Prod.snd

/-- One due month of a group's history, minus the rows an active template already plans.
`spent` is how many of its occurrences that month a template has generated. -/
def dropTemplateMatches (rows : List HistoryRow) (templates : List (Nat × RecurringTransaction))
    (month : Int) (spent : Nat → Int → Int) : List HistoryRow :=
  let indexed := rows.zipIdx.map (fun p => (p.2, p.1))
  let left := templates.foldl (fun left t =>
    let cap := templateOccurrencesInMonth t.2 month - spent t.1 month
    let matched := closestMatches t.2 cap.toNat left
    left.filter (fun p => !matched.contains p.1)) indexed
  left.map Prod.snd

/-! ## Populate -/

section Populate

variable (db : Db) (orgId : Nat)

/-- The active series that plan income or expense, in the org's currency. -/
def activeTemplates : List (Nat × RecurringTransaction) :=
  db.recurring.select (fun _ r => r.orgId == orgId && r.isActive && hasRemainingOccurrences r &&
    r.type != .transfer && orgCurrencyFilter db orgId (resolveCurrencyScope db orgId) r.accountId)

/-- R, first half: occurrences of active templates with no row yet. -/
def projectedOccurrences (pStart pEnd : Int) (existing : List ItemKey) : List (ItemKey × Int) :=
  ((activeTemplates db orgId).filter (fun p => decide (p.2.nextDueDate ≤ pEnd))).flatMap (fun p =>
    match groupOf db orgId p.2.categoryId p.2.type with
    | none => []
    | some key =>
      if key ∈ existing then []
      else
        ((occurrencesInWindow p.2.nextDueDate p.2.frequency pStart pEnd (remainingOccurrences p.2)).filter
          (fun d => !occurrenceExists db orgId p.1 d)).map (fun _ => (key, (p.2.amount : Int))))

/-- The reportable income and expense rows of the period, pending ones too. -/
def periodRows (pStart pEnd : Int) : List Row :=
  db.transactions.select (fun id t =>
    t.orgId == orgId && decide (pStart ≤ effectivePeriodDate t ∧ effectivePeriodDate t ≤ pEnd) &&
      t.type != .transfer && reportableTransactionFilter (id, t) &&
      orgCurrencyFilter db orgId (resolveCurrencyScope db orgId) t.accountId)

/-- R, second half, and B': what the period's rows add, split on `recurring_id`. A group's
total is never zero, amounts being positive. -/
def periodAmounts (pStart pEnd : Int) (generated : Bool) : List (ItemKey × Int) :=
  ((periodRows db orgId pStart pEnd).filter (fun row => row.2.recurringId.isSome == generated)).filterMap
    (fun row => (groupOf db orgId row.2.categoryId row.2.type).map (fun key => (key, (row.2.amount : Int))))

/-- The settled rows without a series in the three months before the period. -/
def historyRows (pStart : Int) : List (ItemKey × HistoryRow) :=
  (db.transactions.select (fun id t =>
    t.orgId == orgId && t.status == .settled && t.recurringId.isNone &&
      decide (addMonths pStart (-3) ≤ effectivePeriodDate t ∧ effectivePeriodDate t < pStart) &&
      t.type != .transfer && reportableTransactionFilter (id, t) &&
      orgCurrencyFilter db orgId (resolveCurrencyScope db orgId) t.accountId)).filterMap
    (fun row => (groupOf db orgId row.2.categoryId row.2.type).map (fun key =>
      (key, { categoryId := row.2.categoryId, accountId := row.2.accountId, amount := row.2.amount
              effMonth := monthOf (effectivePeriodDate row.2), dueMonth := monthOf row.2.date })))

/-- A row holds the series' slot at `d`: a skipped one does, a rejected one or a
reconcile duplicate does not. -/
def slotHeld (recurringId : Nat) (d : Int) : Bool :=
  !(db.transactions.select (fun id t =>
    t.orgId == orgId && t.recurringId == some recurringId && t.date == d &&
      (t.reconciliationState == .skipped || balanceContributionFilter db.transactions (id, t)))).isEmpty

/-- The templates that take part in the history match of a group. -/
def matchingTemplates (pStart pEnd : Int) (key : ItemKey) : List (Nat × RecurringTransaction) :=
  (activeTemplates db orgId).filter (fun p =>
    groupOf db orgId p.2.categoryId p.2.type == some key &&
      !hasOpenSlotBeforeFrontier p.2 pStart pEnd (slotHeld db orgId p.1))

/-- The settled, reportable rows the series has in a month. -/
def generatedCount (recurringId : Nat) (month : Int) : Int :=
  (db.transactions.select (fun id t =>
    t.orgId == orgId && t.recurringId == some recurringId && t.status == .settled &&
      reportableTransactionFilter (id, t) && monthOf t.date == month)).length

/-- A group's history after the match. -/
def keptHistory (pStart pEnd : Int) (key : ItemKey) : List HistoryRow :=
  let rows := ((historyRows db orgId pStart).filter (fun e => e.1 == key)).map Prod.snd
  (rows.map (·.dueMonth)).eraseDups.flatMap (fun month =>
    dropTemplateMatches (rows.filter (fun row => row.dueMonth == month))
      (matchingTemplates db orgId pStart pEnd key) month (generatedCount db orgId))

/-- The months the group has history in, matched or not. -/
def historyMonths (pStart : Int) (key : ItemKey) : List Int :=
  (((historyRows db orgId pStart).filter (fun e => e.1 == key)).map (·.2.effMonth)).eraseDups

/-- A dictionary of totals, read at a key. -/
def totalAt (amounts : List (ItemKey × Int)) (key : ItemKey) : Int :=
  ((amounts.filter (fun e => e.1 == key)).map Prod.snd).sum

variable (roundedMean : Int → Nat → Int)

/-- H': the monthly average, of two months at least. -/
def historyAverage (pStart pEnd : Int) (key : ItemKey) : Int :=
  let months := historyMonths db orgId pStart key
  if 2 ≤ months.length then
    roundedMean ((keptHistory db orgId pStart pEnd key).map (·.amount)).sum months.length
  else 0

/-- What populate has to go by: the recurring obligations, and what it plans per group. -/
structure PlanSources where
  recurring : ItemKey → Int
  planned : ItemKey → Int
  /-- The groups with any of the sources, in the order they are considered. -/
  candidates : List ItemKey

/-- One computation a group, `R + max(H', B')`. -/
def planSources (pStart pEnd : Int) (existing : List ItemKey) : PlanSources :=
  let r := projectedOccurrences db orgId pStart pEnd existing ++ periodAmounts db orgId pStart pEnd true
  let b := periodAmounts db orgId pStart pEnd false
  { recurring := totalAt r
    planned := fun key =>
      totalAt r key + max (historyAverage db orgId roundedMean pStart pEnd key) (totalAt b key)
    candidates := (r.map Prod.fst ++ b.map Prod.fst ++
      (historyRows db orgId pStart).map Prod.fst).eraseDups }

/-- The guard against planning the same spend twice, and what has been added so far. -/
structure PopulateState where
  out : List ForecastPlanItem
  existingKeys : List ItemKey
  claimedMaster : List ItemKey
  claimedSub : List ItemKey

/-- Note an item's category as planned, under its master. -/
def PopulateState.claim (st : PopulateState) (key : ItemKey) : PopulateState :=
  let m := masterOf db orgId key.1
  if key.1 = m then { st with claimedMaster := (m, key.2) :: st.claimedMaster }
  else { st with claimedSub := (m, key.2) :: st.claimedSub }

/-- The state before anything is added. -/
def PopulateState.seeded (items : List ForecastPlanItem) : PopulateState :=
  items.foldl (fun st i => st.claim db orgId i.key)
    { out := [], existingKeys := items.map ForecastPlanItem.key, claimedMaster := [], claimedSub := [] }

/-- Adding the item would plan the same spend twice. `seededMaster` and
`preExistingSubPairs` are snapshots from before the run. -/
def wouldConflict (seededMaster preExistingSubPairs : List ItemKey) (st : PopulateState)
    (key : ItemKey) : Bool :=
  let m := masterOf db orgId key.1
  if subcategoryMode db orgId then
    decide (key.1 ≠ m ∧ (m, key.2) ∈ seededMaster ∧ (m, key.2) ∉ preExistingSubPairs)
  else if key.1 = m then decide ((m, key.2) ∈ st.claimedSub)
  else decide ((m, key.2) ∈ st.claimedMaster)

/-- Add a group's item, if there is something to plan and nothing in the way. -/
def considerGroup (sources : PlanSources) (seededMaster preExistingSubPairs : List ItemKey)
    (st : PopulateState) (key : ItemKey) : PopulateState :=
  if key ∈ st.existingKeys then st
  else if wouldConflict db orgId seededMaster preExistingSubPairs st key then st
  else if sources.planned key ≤ 0 then st
  else
    let item : ForecastPlanItem :=
      { categoryId := key.1, type := key.2, plannedAmount := sources.planned key
        source := if 0 < sources.recurring key then .recurring else .history }
    { st with out := st.out ++ [item], existingKeys := key :: st.existingKeys }.claim db orgId key

/-- The period's last day; an open period is taken for a month. -/
def planPeriodEnd (period : BillingPeriod) : Result Int :=
  match period.endDate with
  | some pEnd => .ok pEnd
  | none => do
    let next ← plusMonths period.startDate 1
    .ok (next - 1)

/-- The items populate would add to a plan holding `items`. -/
def planPopulate (period : BillingPeriod) (items : List ForecastPlanItem)
    (preExistingSubPairs : Option (List ItemKey)) : Result (List ForecastPlanItem) := do
  let pEnd ← planPeriodEnd period
  let st := PopulateState.seeded db orgId items
  let sources := planSources db orgId roundedMean period.startDate pEnd st.existingKeys
  let pre := preExistingSubPairs.getD st.claimedSub
  .ok (sources.candidates.foldl (considerGroup db orgId sources st.claimedMaster pre) st).out

/-- Add what populate suggests. -/
def populateFromSources (period : BillingPeriod) (preExistingSubPairs : Option (List ItemKey))
    (plan : ForecastPlan) : Result ForecastPlan := do
  requireDraft plan
  let rows ← planPopulate db orgId roundedMean period plan.items preExistingSubPairs
  plan.withItems (plan.items ++ rows)

/-- The `(master, type)` pairs that have a sub item. -/
def subPairs (items : List ForecastPlanItem) : List ItemKey :=
  items.filterMap (fun i =>
    ((findCategory db orgId i.categoryId).bind (·.parentId)).map (fun parent => (parent, i.type)))

/-- Replace the generated items, preserving manual ones. -/
def refreshFromSources (period : BillingPeriod) (plan : ForecastPlan) : Result ForecastPlan := do
  requireDraft plan
  let pre := subPairs db orgId plan.items
  let cleared ← plan.withItems (plan.items.filter (fun i => i.source == .manual))
  populateFromSources db orgId roundedMean period (some pre) cleared

end Populate

/-! ## Copy -/

section Copy

variable (db : Db) (orgId : Nat)

/-- The source item is not in the target, and the target does not plan its spend already.
The claims are the target's as it was before the copy. -/
def copies (targetMaster targetSub : List ItemKey) (existing : List ItemKey) (i : ForecastPlanItem) : Bool :=
  let m := masterOf db orgId i.categoryId
  if i.key ∈ existing then false
  else if i.categoryId = m then decide ((m, i.type) ∉ targetSub)
  else decide (¬ ((m, i.type) ∈ targetMaster ∧ (m, i.type) ∉ targetSub))

/-- The source items a copy adds to a plan holding `target`. -/
def planCopy (source target : List ForecastPlanItem) : List ForecastPlanItem :=
  let st := PopulateState.seeded db orgId target
  (source.foldl (fun acc i =>
    if copies db orgId st.claimedMaster st.claimedSub acc.2 i then (acc.1 ++ [i], i.key :: acc.2) else acc)
    (([] : List ForecastPlanItem), st.existingKeys)).1

/-- Copy another plan's items. A copied item is the user's own. -/
def copyFromPeriod (source : Option ForecastPlan) (target : ForecastPlan) : Result ForecastPlan := do
  let source ← found (source.filter (fun p => !p.items.isEmpty)) (.validation "Source period has no plan to copy")
  requireDraft target
  let rows := (planCopy db orgId source.items target.items).map (fun i => { i with source := .manual })
  target.withItems (target.items ++ rows)

end Copy

/-! ## Calls -/

/-- The plans of an org, under their billing periods. -/
abbrev Plans := Nat → Option ForecastPlan

/-- `_get_or_create_plan_row`: no plan is an empty draft. -/
def planAt (plans : Plans) (periodId : Nat) : ForecastPlan := (plans periodId).getD {}

inductive PlanCall
  | populate (periodId : Nat)
  | refresh (periodId : Nat)
  | copy (targetId sourceId : Nat)

/-- The plan the call writes. -/
def PlanCall.target : PlanCall → Nat
  | .populate periodId => periodId
  | .refresh periodId => periodId
  | .copy targetId _ => targetId

def findPeriod (db : Db) (orgId periodId : Nat) : Result BillingPeriod :=
  found ((db.billingPeriods.get? periodId).filter (fun p => p.orgId == orgId))
    (.validation "Billing period not found")

/-- What a call makes of its target. -/
def planAfter (db : Db) (orgId : Nat) (roundedMean : Int → Nat → Int) (plans : Plans) (call : PlanCall) :
    Result ForecastPlan := do
  let period ← findPeriod db orgId call.target
  match call with
  | .populate periodId => populateFromSources db orgId roundedMean period none (planAt plans periodId)
  | .refresh periodId => refreshFromSources db orgId roundedMean period (planAt plans periodId)
  | .copy targetId sourceId => do
    let _ ← findPeriod db orgId sourceId
    copyFromPeriod db orgId (plans sourceId) (planAt plans targetId)

/-- A call writes its target and nothing else. -/
def handlePlanCall (db : Db) (orgId : Nat) (roundedMean : Int → Nat → Int) (plans : Plans) (call : PlanCall) :
    Result Plans := do
  let plan ← planAfter db orgId roundedMean plans call
  .ok (fun periodId => if periodId = call.target then some plan else plans periodId)

end BetterDecision
