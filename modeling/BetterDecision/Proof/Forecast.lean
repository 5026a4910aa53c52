import BetterDecision.Model.Forecast
import BetterDecision.Proof.Generation

/-!
# The forecast across generation

Every figure of the forecast adds up the same two things: the rows in the window, at the
date their status has them under, and the occurrences of the series that no row stands
for yet. `figure` is that sum for one kind of row. The sweep changes a row's status and
not its date; a round moves one occurrence from the second half to the first. So no
generation run moves a figure (`figure_generate`), at any clock.
-/

namespace BetterDecision

variable {db db' : Db} {today : Int} {orgId recurringId : Nat} {r : RecurringTransaction}

/-! ## A figure -/

section Figure

variable (orgId : Nat) (pStart windowEnd : Int) (inCurrency : Nat → Bool)
  (wants : TransactionType → Nat → Bool)

/-- The row lies in the window at the date its status has it under. -/
def inWindow (t : Transaction) : Bool :=
  match t.status with
  | .settled => t.settledDate.any (fun s => decide (pStart ≤ s ∧ s ≤ windowEnd))
  | .pending => decide (pStart ≤ effectivePeriodDate t ∧ effectivePeriodDate t ≤ windowEnd)

/-- What a row adds to the figure. -/
def rowAmount (t : Transaction) : Int :=
  if (t.orgId == orgId && reportableTransactionFilter (0, t) && inCurrency t.accountId) &&
      inWindow pStart windowEnd t && wants t.type t.categoryId then t.amount else 0

/-- What an occurrence of a series adds to it. -/
def seriesAmount (r : RecurringTransaction) : Int :=
  if (r.orgId == orgId && r.isActive && r.type != .transfer && inCurrency r.accountId) &&
      wants r.type r.categoryId then r.amount else 0

/-- The rows in the window and the occurrences still to come in it. -/
def figure (db : Db) : Int :=
  rowSum (fun _ => rowAmount orgId pStart windowEnd inCurrency wants) db.transactions +
    comingSum orgId pStart windowEnd (seriesAmount orgId inCurrency wants) db

end Figure

section Steps

variable {pStart windowEnd : Int} {inCurrency : Nat → Bool} {wants : TransactionType → Nat → Bool}

theorem seriesAmount_spent (r : RecurringTransaction) (next : Int) :
    seriesAmount orgId inCurrency wants (spent r next) = seriesAmount orgId inCurrency wants r := rfl

/-- Settling moves a row from one half of the executed and pending sums to the other. -/
theorem rowAmount_settledRow {t : Transaction} (h : t.status = .pending) :
    rowAmount orgId pStart windowEnd inCurrency wants (settledRow t) =
      rowAmount orgId pStart windowEnd inCurrency wants t := by
  have hin : inWindow pStart windowEnd (settledRow t) = inWindow pStart windowEnd t := by
    unfold inWindow
    rw [h]
    rfl
  unfold rowAmount
  rw [hin]
  rfl

/-- A row of a plain occurrence is in the window iff the occurrence is. -/
theorem rowAmount_occurrenceRow {due : Int} {settled : Bool} (hplain : r.type ≠ .transfer)
    (horg : r.orgId = orgId) (hactive : r.isActive = true) :
    rowAmount orgId pStart windowEnd inCurrency wants (occurrenceRow orgId recurringId r due settled) =
      if pStart ≤ due ∧ due ≤ windowEnd then seriesAmount orgId inCurrency wants r else 0 := by
  have hin : inWindow pStart windowEnd (occurrenceRow orgId recurringId r due settled) =
      decide (pStart ≤ due ∧ due ≤ windowEnd) := by
    cases settled <;> rfl
  unfold rowAmount seriesAmount
  rw [hin]
  simp only [occurrenceRow, horg, hactive, reportableTransactionFilter, ReconciliationState.isReverted,
    beq_self_eq_true, Option.isNone_none, Bool.not_false, Bool.and_true, Bool.true_and, bne_iff_ne.mpr hplain]
  by_cases hwindow : pStart ≤ due ∧ due ≤ windowEnd <;> simp [hwindow]

/-- The rows a round writes weigh what the occurrence weighed. A transfer weighs nothing,
before and after. -/
theorem rowAmount_roundRows (h : Round today orgId recurringId r db db') :
    ((roundRows db today orgId recurringId r).map (rowAmount orgId pStart windowEnd inCurrency wants)).sum =
      if (pStart ≤ r.nextDueDate ∧ r.nextDueDate ≤ windowEnd) ∧
          occurrenceExists db orgId recurringId r.nextDueDate = false
        then seriesAmount orgId inCurrency wants r else 0 := by
  unfold roundRows
  cases hexists : occurrenceExists db orgId recurringId r.nextDueDate with
  | true => simp
  | false =>
    simp only [Bool.false_eq_true, if_false, and_true]
    unfold occurrenceRows
    dsimp only
    split
    · rename_i htransfer
      have hzero : seriesAmount orgId inCurrency wants r = 0 := by
        unfold seriesAmount
        simp [htransfer]
      rw [hzero, ite_self]
      -- both legs are linked, so neither is reportable
      cases r.toAccountId with
      | none => rfl
      | some toAccountId => simp [rowAmount, reportableTransactionFilter, withLink]
    · rename_i hplain
      rw [List.map_cons, List.map_nil, List.sum_cons, List.sum_nil, add_zero,
        rowAmount_occurrenceRow hplain h.org h.active]

theorem figure_round (h : Round today orgId recurringId r db db') :
    figure orgId pStart windowEnd inCurrency wants db' = figure orgId pStart windowEnd inCurrency wants db := by
  unfold figure
  rw [rowSum_of_round h, rowAmount_roundRows h, comingSum_of_round h seriesAmount_spent, add_assoc,
    add_comm (comingSum ..)]

theorem figure_sweep {n : Nat} (h : settleDueAuto db today orgId = .ok (db', n)) :
    figure orgId pStart windowEnd inCurrency wants db' = figure orgId pStart windowEnd inCurrency wants db := by
  have hdb' := settleDueAuto_ok h
  have hrows : db'.transactions = db.transactions.mapRows (fun i t =>
      if i ∈ ((dueAutoSettleUnits db today orgId).flatten).map Prod.fst then settledRow t else t) := by
    rw [hdb']; rfl
  unfold figure
  rw [hrows, rowSum_sweep, comingSum_congr (by rw [hdb']; rfl) (occurrenceExists_sweep hrows)]
  congr 1
  refine Table.total_congr fun i t ht => ?_
  split
  · rename_i hi
    obtain ⟨row, hrow, rfl⟩ := List.mem_map.mp hi
    obtain ⟨hget, -, hpending, -⟩ := dueAutoSettleRows_spec (mem_dueAutoSettleUnits hrow)
    obtain rfl : row.2 = t := by rw [hget] at ht; exact Option.some.inj ht
    exact rowAmount_settledRow hpending
  · rfl

/-- **A generation run moves no figure**, and nothing a forecast reads beside the figures. -/
theorem figure_generate {result : GenerateResult} (h : generateDueTransactions db today orgId = .ok (db', result)) :
    figure orgId pStart windowEnd inCurrency wants db' = figure orgId pStart windowEnd inCurrency wants db := by
  obtain ⟨mid, n, tally, hsweep, hwalks⟩ := generateDueTransactions_ok h
  obtain ⟨-, hsum⟩ := templates_measure (E := figure orgId pStart windowEnd inCurrency wants)
    (δ := fun _ _ => 0) (fun _ _ _ => rfl) (fun j r db db' hround => by rw [figure_round hround, ite_self, add_zero])
    _ (dueSeries_nodup ..) (fun p hp => dueSeries_spec hp) hwalks
  rw [hsum, figure_sweep hsweep]
  simp

end Steps

/-! ## The response's figures -/

/-- A run changes no account's currency, so the scope is what it was. -/
theorem resolveCurrencyScope_untouched (h : Untouched db db') (orgId : Nat) :
    resolveCurrencyScope db' orgId = resolveCurrencyScope db orgId := by
  obtain ⟨μ, hμ⟩ := h.accounts
  have hcount : ∀ currency : String, (db'.accounts.select (fun _ a =>
      a.orgId == orgId && normaliseCurrency a.currency != currency)).length =
      (db.accounts.select (fun _ a =>
        a.orgId == orgId && normaliseCurrency a.currency != currency)).length := by
    intro currency
    rw [hμ, credit, Table.select_mapRows (by exact fun _ _ _ => rfl), List.length_map]
  unfold resolveCurrencyScope
  simp only [h.organizations, hcount]

theorem orgCurrencyFilter_untouched (h : Untouched db db') (orgId : Nat) (scope : CurrencyScope) (accountId : Nat) :
    orgCurrencyFilter db' orgId scope accountId = orgCurrencyFilter db orgId scope accountId := by
  obtain ⟨μ, hμ⟩ := h.accounts
  unfold orgCurrencyFilter findAccount
  rw [hμ, get?_credit]
  cases db.accounts.get? accountId with
  | none => rfl
  | some a => by_cases horg : a.orgId = orgId <;> simp [Option.filter, horg]

/-- The accounts whose rows an aggregate of the org is over. -/
def inScope (db : Db) (orgId accountId : Nat) : Bool :=
  orgCurrencyFilter db orgId (resolveCurrencyScope db orgId) accountId

theorem inScope_untouched (h : Untouched db db') (orgId : Nat) : inScope db' orgId = inScope db orgId := by
  funext accountId
  unfold inScope
  rw [resolveCurrencyScope_untouched h, orgCurrencyFilter_untouched h]

section Figures

variable {lo hi : Int} {wants : TransactionType → Nat → Bool}

/-- A row of a figure is executed or pending, and never both. -/
theorem rowSum_eq (db : Db) (orgId : Nat) (lo hi : Int) (wants : TransactionType → Nat → Bool) :
    rowSum (fun _ => rowAmount orgId lo hi (inScope db orgId) wants) db.transactions =
      db.transactions.total (fun i t =>
        if isExecuted db orgId lo hi (i, t) && wants t.type t.categoryId then (t.amount : Int) else 0) +
      db.transactions.total (fun i t =>
        if isPendingIn db orgId lo hi (i, t) && wants t.type t.categoryId then (t.amount : Int) else 0) := by
  unfold rowSum
  rw [← Table.total_add]
  refine Table.total_congr fun i t _ => ?_
  unfold rowAmount isExecuted isPendingIn aggregated inWindow inScope reportableTransactionFilter
  cases hstatus : t.status <;> simp [hstatus]

/-- The one walk, summed over some types and categories. -/
theorem upcoming_sum (db : Db) (orgId : Nat) (lo hi : Int) (wants : TransactionType → Nat → Bool) :
    (((upcoming db orgId lo hi).filter (fun o => wants o.1 o.2.1)).map (·.2.2)).sum =
      comingSum orgId lo hi (seriesAmount orgId (inScope db orgId) wants) db := by
  have hone : ∀ p : Nat × RecurringTransaction, ((((unmaterialised db orgId lo hi p).map (fun _ =>
      (p.2.type, p.2.categoryId, (p.2.amount : Int)))).filter (fun o => wants o.1 o.2.1)).map (·.2.2)).sum =
      (unmaterialised db orgId lo hi p).length • if wants p.2.type p.2.categoryId then (p.2.amount : Int) else 0 := by
    intro p
    cases hwants : wants p.2.type p.2.categoryId <;> simp [hwants]
  unfold upcoming recurringItems comingSum
  rw [List.filter_flatMap, List.map_flatMap, List.flatMap_def, List.sum_flatten, List.map_map]
  simp only [Function.comp_def, hone]
  rw [Table.sum_select db.recurring _ (fun i r => (unmaterialised db orgId lo hi (i, r)).length •
    if wants r.type r.categoryId then (r.amount : Int) else 0)]
  refine Table.total_congr fun i r _ => ?_
  by_cases hin : activeSeriesFilter r = true ∧ r.nextDueDate ≤ hi
  · have hactive : r.isActive = true := ((Bool.and_eq_true ..).mp hin.1).1
    unfold seriesAmount inScope
    simp only [hin, hactive, decide_true, Bool.and_true, ← smul_ite_zero, ← ite_and]
    congr 1
    simp [and_assoc]
  · -- a series the query leaves out has nothing to come in the window
    have hnone := unmaterialised_of_out db orgId lo i hin
    have hzero : (unmaterialised db orgId lo hi (i, r)).length • seriesAmount orgId (inScope db orgId) wants r = 0 := by
      rcases hnone with hnone | hnone
      · unfold seriesAmount
        simp [hnone]
      · simp [hnone]
    rw [hzero, if_neg]
    simp only [Bool.and_eq_true, decide_eq_true_eq]
    intro hcond
    exact hin ⟨hcond.1.1.1.2, hcond.1.1.2⟩

/-! ### Totals -/

/-- A total over all rows of a type. -/
theorem amountOf_eq (db : Db) (type : TransactionType) (test : Row → Bool) :
    amountOf db type test = db.transactions.total (fun i t =>
      if test (i, t) && (fun type' (_ : Nat) => type' == type) t.type t.categoryId then (t.amount : Int) else 0) := rfl

theorem executed_and_pending (db : Db) (orgId : Nat) (lo hi : Int) (type : TransactionType) :
    amountOf db type (isExecuted db orgId lo hi) + amountOf db type (isPendingIn db orgId lo hi) =
      rowSum (fun _ => rowAmount orgId lo hi (inScope db orgId) (fun type' _ => type' == type)) db.transactions := by
  rw [rowSum_eq]
  rfl

theorem forecastIncome_eq (db : Db) (orgId : Nat) (lo hi : Int) : (forecastOver db orgId lo hi).forecastIncome =
    figure orgId lo hi (inScope db orgId) (fun type _ => type == .income) db := by
  unfold figure
  rw [← executed_and_pending, ← upcoming_sum]
  rfl

/-- A series that is no income is an expense: the walk has no transfers. -/
theorem comingSum_expense (db : Db) (orgId : Nat) (lo hi : Int) (category : Nat → Bool) :
    comingSum orgId lo hi (seriesAmount orgId (inScope db orgId) (fun type c => type != .income && category c)) db =
      comingSum orgId lo hi (seriesAmount orgId (inScope db orgId) (fun type c => type == .expense && category c)) db := by
  unfold comingSum
  refine Table.total_congr fun i r _ => ?_
  congr 1
  unfold seriesAmount
  cases r.type <;> simp

theorem forecastExpense_eq (db : Db) (orgId : Nat) (lo hi : Int) : (forecastOver db orgId lo hi).forecastExpense =
    figure orgId lo hi (inScope db orgId) (fun type _ => type == .expense) db := by
  have hcoming := comingSum_expense db orgId lo hi (fun _ => true)
  simp only [Bool.and_true] at hcoming
  unfold figure
  rw [← executed_and_pending, ← hcoming, ← upcoming_sum]
  rfl

/-! ### Categories -/

theorem totalIn_expenseByCategory (db : Db) (test : Row → Bool) (categoryId : Nat) :
    totalIn (expenseByCategory db test) categoryId = db.transactions.total (fun i t =>
      if test (i, t) && (t.type == .expense && t.categoryId == categoryId) then (t.amount : Int) else 0) := by
  unfold totalIn expenseByCategory
  rw [List.filter_map, List.map_map]
  simp only [Function.comp_def]
  rw [Table.filter_select db.transactions _ (fun _ t => t.categoryId == categoryId),
    Table.sum_select db.transactions _ (fun _ t => (t.amount : Int))]
  simp only [Bool.and_assoc]

theorem totalIn_recurringByCategory (db : Db) (orgId : Nat) (lo hi : Int) (categoryId : Nat) :
    totalIn (recurringByCategory db orgId lo hi) categoryId =
      (((upcoming db orgId lo hi).filter (fun o => o.1 != .income && o.2.1 == categoryId)).map (·.2.2)).sum := by
  unfold totalIn recurringByCategory
  rw [List.filter_map, List.map_map, List.filter_filter]
  simp only [Function.comp_def, Bool.and_comm]

/-- What the breakdown says of a category, whether it lists it or not. -/
theorem forecastCategory_eq (db : Db) (orgId : Nat) (lo hi : Int) (categoryId : Nat) :
    (forecastCategory db orgId (expenseByCategory db (isExecuted db orgId lo hi))
      (expenseByCategory db (isPendingIn db orgId lo hi)) (recurringByCategory db orgId lo hi) categoryId).forecast =
      figure orgId lo hi (inScope db orgId) (fun type c => type == .expense && c == categoryId) db := by
  unfold figure
  rw [rowSum_eq, ← comingSum_expense db orgId lo hi (· == categoryId), ← upcoming_sum,
    ← totalIn_recurringByCategory, ← totalIn_expenseByCategory, ← totalIn_expenseByCategory]
  rfl

end Figures

/-! ### The list of categories -/

theorem totalIn_cons (e : Nat × Int) (amounts : List (Nat × Int)) (c : Nat) :
    totalIn (e :: amounts) c = (if e.1 = c then e.2 else 0) + totalIn amounts c := by
  unfold totalIn
  by_cases h : e.1 = c <;> simp [h]

theorem totalIn_append (amounts more : List (Nat × Int)) (c : Nat) :
    totalIn (amounts ++ more) c = totalIn amounts c + totalIn more c := by
  simp [totalIn]

/-- Amounts are positive, so a category is listed iff its total is. -/
theorem mem_keys_iff {amounts : List (Nat × Int)} (hpos : ∀ e ∈ amounts, 0 < e.2) (c : Nat) :
    0 ≤ totalIn amounts c ∧ (c ∈ amounts.map Prod.fst ↔ 0 < totalIn amounts c) := by
  induction amounts with
  | nil => simp [totalIn]
  | cons e amounts ih =>
    obtain ⟨hnonneg, hiff⟩ := ih fun x hx => hpos x (List.mem_cons_of_mem _ hx)
    have he := hpos e List.mem_cons_self
    rw [totalIn_cons, List.map_cons, List.mem_cons, hiff]
    by_cases h : e.1 = c
    · rw [if_pos h]
      exact ⟨by omega, ⟨fun _ => by omega, fun _ => .inl h.symm⟩⟩
    · rw [if_neg h, zero_add]
      exact ⟨hnonneg, ⟨fun hc => hc.resolve_left (Ne.symm h), .inr⟩⟩

theorem upcoming_pos {lo hi : Int} {o : TransactionType × Nat × Int} (h : o ∈ upcoming db orgId lo hi) :
    0 < o.2.2 := by
  obtain ⟨p, -, hmem⟩ := List.mem_flatMap.mp h
  obtain ⟨d, -, rfl⟩ := List.mem_map.mp hmem
  exact p.2.amount.2

theorem expenseByCategory_pos {test : Row → Bool} {e : Nat × Int} (h : e ∈ expenseByCategory db test) : 0 < e.2 := by
  obtain ⟨row, -, rfl⟩ := List.mem_map.mp h
  exact row.2.amount.2

theorem recurringByCategory_pos {lo hi : Int} {e : Nat × Int} (h : e ∈ recurringByCategory db orgId lo hi) :
    0 < e.2 := by
  obtain ⟨o, ho, rfl⟩ := List.mem_map.mp h
  exact upcoming_pos (List.mem_of_mem_filter ho)

/-- The categories the breakdown lists, in the order it lists them. -/
def listedCategories (f : Forecast) : List Nat := f.categories.map (·.categoryId)

theorem listedCategories_eq (db : Db) (orgId : Nat) (lo hi : Int) :
    listedCategories (forecastOver db orgId lo hi) =
      (((expenseByCategory db (isExecuted db orgId lo hi) ++ expenseByCategory db (isPendingIn db orgId lo hi) ++
        recurringByCategory db orgId lo hi).map Prod.fst).dedup).insertionSort (· ≤ ·) := by
  unfold listedCategories forecastOver
  rw [List.map_map]
  exact List.map_id _

/-- A category is listed iff its forecast is not zero. -/
theorem mem_listedCategories (db : Db) (orgId : Nat) (lo hi : Int) (c : Nat) :
    c ∈ listedCategories (forecastOver db orgId lo hi) ↔
      0 < figure orgId lo hi (inScope db orgId) (fun type k => type == .expense && k == c) db := by
  have hpos : ∀ e ∈ expenseByCategory db (isExecuted db orgId lo hi) ++
      expenseByCategory db (isPendingIn db orgId lo hi) ++ recurringByCategory db orgId lo hi, 0 < e.2 := by
    intro e he
    rcases List.mem_append.mp he with he | he
    · rcases List.mem_append.mp he with he | he
      · exact expenseByCategory_pos he
      · exact expenseByCategory_pos he
    · exact recurringByCategory_pos he
  rw [listedCategories_eq, List.mem_insertionSort, List.mem_dedup, (mem_keys_iff hpos c).2, totalIn_append,
    totalIn_append, ← forecastCategory_eq]
  rfl

/-- Two lists of categories are one if they hold the same. -/
theorem listedCategories_congr {orgId' : Nat} {lo hi lo' hi' : Int}
    (h : ∀ c, c ∈ listedCategories (forecastOver db' orgId' lo' hi') ↔
      c ∈ listedCategories (forecastOver db orgId lo hi)) :
    listedCategories (forecastOver db' orgId' lo' hi') = listedCategories (forecastOver db orgId lo hi) := by
  have hsorted : ∀ (db : Db) (orgId : Nat) (lo hi : Int),
      (listedCategories (forecastOver db orgId lo hi)).Pairwise (· ≤ ·) ∧
        (listedCategories (forecastOver db orgId lo hi)).Nodup := by
    intro db orgId lo hi
    rw [listedCategories_eq]
    exact ⟨List.pairwise_insertionSort _ _, (List.perm_insertionSort ..).nodup_iff.mpr (List.nodup_dedup _)⟩
  obtain ⟨hle', hnodup'⟩ := hsorted db' orgId' lo' hi'
  obtain ⟨hle, hnodup⟩ := hsorted db orgId lo hi
  exact ((List.perm_ext_iff_of_nodup hnodup' hnodup).mpr h).eq_of_pairwise' hle' hle

/-! ## The forecast does not move -/

/-- What a forecast says in the end, whichever part an amount is in. -/
structure ForecastTotals where
  periodStart : Int
  periodEnd : Int
  forecastIncome : Int
  forecastExpense : Int
  forecastNet : Int
  /-- Per category: its id, its name, its master and its forecast. -/
  categories : List (Nat × String × Option Nat × Int)

def Forecast.totals (f : Forecast) : ForecastTotals where
  periodStart := f.periodStart
  periodEnd := f.periodEnd
  forecastIncome := f.forecastIncome
  forecastExpense := f.forecastExpense
  forecastNet := f.forecastNet
  categories := f.categories.map (fun c => (c.categoryId, c.categoryName, c.parentId, c.forecast))

/-- A category's line, from its figure. -/
def categoryLine (db : Db) (orgId : Nat) (lo hi : Int) (inCurrency : Nat → Bool) (c : Nat) :
    Nat × String × Option Nat × Int :=
  (c, ((findCategory db orgId c).map (·.name)).getD "Unknown", (findCategory db orgId c).bind (·.parentId),
    figure orgId lo hi inCurrency (fun type k => type == .expense && k == c) db)

theorem totals_categories (db : Db) (orgId : Nat) (lo hi : Int) :
    (forecastOver db orgId lo hi).totals.categories =
      (listedCategories (forecastOver db orgId lo hi)).map (categoryLine db orgId lo hi (inScope db orgId)) := by
  unfold listedCategories Forecast.totals
  rw [List.map_map]
  refine List.map_congr_left fun c hc => ?_
  obtain ⟨id, -, rfl⟩ := List.mem_map.mp (show c ∈ List.map _ _ from hc)
  simp only [Function.comp_apply, categoryLine, ← forecastCategory_eq]
  rfl

theorem totals_congr (h : Untouched db db') {lo hi : Int}
    (hfigure : ∀ wants, figure orgId lo hi (inScope db orgId) wants db' = figure orgId lo hi (inScope db orgId) wants db) :
    (forecastOver db' orgId lo hi).totals = (forecastOver db orgId lo hi).totals := by
  have hscope := inScope_untouched h orgId
  have hincome : (forecastOver db' orgId lo hi).forecastIncome = (forecastOver db orgId lo hi).forecastIncome := by
    rw [forecastIncome_eq, forecastIncome_eq, hscope, hfigure]
  have hexpense : (forecastOver db' orgId lo hi).forecastExpense = (forecastOver db orgId lo hi).forecastExpense := by
    rw [forecastExpense_eq, forecastExpense_eq, hscope, hfigure]
  have hlisted : listedCategories (forecastOver db' orgId lo hi) = listedCategories (forecastOver db orgId lo hi) := by
    refine listedCategories_congr fun c => ?_
    rw [mem_listedCategories, mem_listedCategories, hscope, hfigure]
  have hline : categoryLine db' orgId lo hi (inScope db' orgId) = categoryLine db orgId lo hi (inScope db orgId) := by
    funext c
    unfold categoryLine findCategory
    rw [hscope, hfigure, h.categories]
  have hcategories : (forecastOver db' orgId lo hi).totals.categories =
      (forecastOver db orgId lo hi).totals.categories := by
    rw [totals_categories, totals_categories, hlisted, hline]
  have hnet : (forecastOver db' orgId lo hi).forecastNet = (forecastOver db orgId lo hi).forecastNet := by
    show (forecastOver db' orgId lo hi).forecastIncome - (forecastOver db' orgId lo hi).forecastExpense = _
    rw [hincome, hexpense]
    rfl
  show ForecastTotals.mk lo hi (forecastOver db' orgId lo hi).forecastIncome
    (forecastOver db' orgId lo hi).forecastExpense (forecastOver db' orgId lo hi).forecastNet
    (forecastOver db' orgId lo hi).totals.categories = _
  rw [hincome, hexpense, hnet, hcategories]
  rfl

/-! ### The window -/

theorem cycleDayOf_untouched (h : Untouched db db') (orgId : Nat) : cycleDayOf db' orgId = cycleDayOf db orgId := by
  unfold cycleDayOf
  rw [h.organizations]

/-- Two states with one roster. -/
theorem periodAt_congr (h : db'.billingPeriods = db.billingPeriods) (orgId : Nat) :
    periodAt db' orgId = periodAt db orgId := by
  unfold periodAt periodsOf
  rw [h]

theorem openPeriods_congr (h : db'.billingPeriods = db.billingPeriods) (orgId : Nat) :
    openPeriods db' orgId = openPeriods db orgId := by
  unfold openPeriods periodsOf
  rw [h]

theorem periodWindowEnd_congr (h : db'.billingPeriods = db.billingPeriods) (orgId : Nat) (id : Option Nat)
    (period : BillingPeriod) (now : Int) :
    periodWindowEnd db' orgId id period now = periodWindowEnd db orgId id period now := by
  have hend : periodEffectiveEnd db' orgId period = periodEffectiveEnd db orgId period := by
    unfold periodEffectiveEnd nextPeriodStart periodsOf
    rw [h]
  unfold periodWindowEnd periodSpendWindowEnd
  rw [hend]

theorem getCurrentPeriod_untouched (h : Untouched db db') (orgId : Nat) (now : Int) :
    (getCurrentPeriod db' orgId now).2 = (getCurrentPeriod db orgId now).2 ∧
      (getCurrentPeriod db' orgId now).1.billingPeriods = (getCurrentPeriod db orgId now).1.billingPeriods := by
  unfold getCurrentPeriod
  rw [openPeriods_congr h.billingPeriods, periodAt_congr h.billingPeriods, cycleDayOf_untouched h]
  split
  · exact ⟨rfl, h.billingPeriods⟩
  · dsimp only
    split
    · exact ⟨rfl, h.billingPeriods⟩
    · exact ⟨by rw [h.billingPeriods], by unfold addPeriod; rw [h.billingPeriods]⟩

/-- The rows a forecast is over do not lie in the roster. -/
theorem forecastOver_getCurrentPeriod (db : Db) (orgId : Nat) (now lo hi : Int) :
    forecastOver (getCurrentPeriod db orgId now).1 orgId lo hi = forecastOver db orgId lo hi := by
  unfold getCurrentPeriod
  split
  · rfl
  · dsimp only
    split <;> rfl

/-- The period a forecast is asked for, and the roster as the call leaves it. -/
def forecastPeriod (db : Db) (orgId : Nat) (periodStart : Option Int) (now : Int) : Db × Nat × BillingPeriod :=
  match periodStart.bind (periodAt db orgId) with
  | some p => (db, p)
  | none => getCurrentPeriod db orgId now

theorem computeForecast_eq (db : Db) (orgId : Nat) (periodStart : Option Int) (now : Int) :
    (computeForecast db orgId periodStart now).map (fun p => p.2.totals) =
      (periodWindowEnd (forecastPeriod db orgId periodStart now).1 orgId
        (some (forecastPeriod db orgId periodStart now).2.1) (forecastPeriod db orgId periodStart now).2.2 now).map
        (fun windowEnd => (forecastOver db orgId (forecastPeriod db orgId periodStart now).2.2.startDate windowEnd).totals) := by
  have hover : ∀ windowEnd, forecastOver (forecastPeriod db orgId periodStart now).1 orgId
      (forecastPeriod db orgId periodStart now).2.2.startDate windowEnd =
      forecastOver db orgId (forecastPeriod db orgId periodStart now).2.2.startDate windowEnd := by
    intro windowEnd
    unfold forecastPeriod
    split
    · rfl
    · exact forecastOver_getCurrentPeriod ..
  simp only [← hover]
  unfold computeForecast resolveSpendWindow forecastPeriod
  cases periodStart.bind (periodAt db orgId) with
  | some p =>
    dsimp only
    cases periodWindowEnd db orgId (some p.1) p.2 now <;> rfl
  | none =>
    dsimp only
    cases periodWindowEnd (getCurrentPeriod db orgId now).1 orgId (some (getCurrentPeriod db orgId now).2.1)
      (getCurrentPeriod db orgId now).2.2 now <;> rfl

theorem forecastPeriod_untouched (h : Untouched db db') (orgId : Nat) (periodStart : Option Int) (now : Int) :
    (forecastPeriod db' orgId periodStart now).2 = (forecastPeriod db orgId periodStart now).2 ∧
      (forecastPeriod db' orgId periodStart now).1.billingPeriods =
        (forecastPeriod db orgId periodStart now).1.billingPeriods := by
  unfold forecastPeriod
  rw [periodAt_congr h.billingPeriods]
  split
  · exact ⟨rfl, h.billingPeriods⟩
  · exact getCurrentPeriod_untouched h orgId now

/-- One run leaves the forecast's totals as they are, whatever period is asked for. -/
theorem computeForecast_generate {result : GenerateResult}
    (h : generateDueTransactions db today orgId = .ok (db', result)) (periodStart : Option Int) (now : Int) :
    (computeForecast db' orgId periodStart now).map (fun p => p.2.totals) =
      (computeForecast db orgId periodStart now).map (fun p => p.2.totals) := by
  have huntouched := generateDueTransactions_untouched h
  obtain ⟨hperiod, hroster⟩ := forecastPeriod_untouched huntouched orgId periodStart now
  rw [computeForecast_eq, computeForecast_eq, hperiod, periodWindowEnd_congr hroster]
  congr 1
  funext windowEnd
  exact totals_congr huntouched fun wants => figure_generate h

/-- Generation as a run serves it: a refused run is rolled back. -/
def generateCall (orgId : Nat) (db : Db) (today : Int) : Result Db :=
  (generateDueTransactions db today orgId).map Prod.fst

/-- **The monthly forecast does not move when the scheduler runs**: after any number of runs,
at any clocks, every period's forecast says what it said before. -/
theorem forecast_survives_generation (db : Db) (orgId : Nat) (clocks : List Int) (periodStart : Option Int) (now : Int) :
    (computeForecast (run (generateCall orgId) db clocks) orgId periodStart now).map (fun p => p.2.totals) =
      (computeForecast db orgId periodStart now).map (fun p => p.2.totals) := by
  refine run_invariant (I := fun db' => (computeForecast db' orgId periodStart now).map (fun p => p.2.totals) =
    (computeForecast db orgId periodStart now).map (fun p => p.2.totals)) ?_ clocks rfl
  intro mid today db' hmid hrun
  unfold generateCall at hrun
  cases hgenerate : generateDueTransactions mid today orgId with
  | error e => rw [hgenerate] at hrun; cases hrun
  | ok p =>
    rw [hgenerate] at hrun
    obtain rfl : p.1 = db' := Except.ok.inj hrun
    exact (computeForecast_generate hgenerate periodStart now).trans hmid

end BetterDecision
