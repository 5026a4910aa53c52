import BetterDecision.Lib.Paging
import BetterDecision.Model.ForecastWindow
import BetterDecision.Model.Tags

/-!
# Reports over transactions

The query AST once the schema has coerced it, the catalog the transactions source holds
it to, and `compile_ast_to_query`: which rows a query selects, what it groups them by,
and which of the groups fit on the page. A bucket keeps the rows behind its value.

What the database decides is a parameter: the sort key its collation gives a string, the
order of a dimension column, and how an average is rounded. The bounds of the schema are
fields of the query.
-/

namespace BetterDecision

open Calendar Paging

/-! ## The tables -/

structure NamedTag extends Tag where
  name : String

/-- The ledger with what a report joins to it. -/
structure ReportsDb extends Db where
  /-- `account_types.name`. -/
  accountTypes : Table String := .empty
  /-- `accounts.account_type_id`, by account. -/
  accountTypeId : Nat → Nat := fun _ => 0
  tags : Table NamedTag := .empty
  /-- `transaction_tags`: a transaction and a tag. -/
  transactionTags : List (Nat × Nat) := []

/-- The value of a dimension column. -/
inductive DimensionValue
  | text (s : String)
  | txnType (t : TransactionType)
  | status (s : TransactionStatus)
  | month (k : Int)
  | week (year week : Int)
  | day (day : Int)
  deriving DecidableEq, Repr

/-- What the database decides. -/
structure ReportsEnv (κ : Type) where
  collate : String → String
  rank : DimensionValue → κ
  roundAverage : Rat → Rat

/-! ## The query -/

inductive Aggregation
  | sum
  | count
  | avg
  | distinct
  deriving DecidableEq, Repr

inductive MeasureField
  | amount
  | balance
  | id
  | categoryId
  | accountId
  | netWorth
  | utilizationPct
  | outstanding
  | creditLimit
  | netAmount
  deriving DecidableEq, Repr

inductive Dimension
  | category
  | categoryMaster
  | account
  | accountType
  | currency
  | accountActive
  | frequency
  | recurringActive
  | tag
  | txnType
  | status
  | month
  | week
  | day
  deriving DecidableEq, Repr

def Aggregation.value : Aggregation → String
  | .sum => "sum"
  | .count => "count"
  | .avg => "avg"
  | .distinct => "distinct"

def MeasureField.value : MeasureField → String
  | .amount => "amount"
  | .balance => "balance"
  | .id => "id"
  | .categoryId => "category_id"
  | .accountId => "account_id"
  | .netWorth => "net_worth"
  | .utilizationPct => "utilization_pct"
  | .outstanding => "outstanding"
  | .creditLimit => "credit_limit"
  | .netAmount => "net_amount"

def Dimension.value : Dimension → String
  | .category => "category"
  | .categoryMaster => "category_master"
  | .account => "account"
  | .accountType => "account_type"
  | .currency => "currency"
  | .accountActive => "account_active"
  | .frequency => "frequency"
  | .recurringActive => "recurring_active"
  | .tag => "tag"
  | .txnType => "txn_type"
  | .status => "status"
  | .month => "month"
  | .week => "week"
  | .day => "day"

/-- `NUMERIC_MEASURE_FIELDS`. -/
def MeasureField.isNumeric : MeasureField → Bool
  | .id | .categoryId | .accountId => false
  | _ => true

structure Measure where
  agg : Aggregation
  field : MeasureField
  numeric : agg = .sum ∨ agg = .avg → field.isNumeric = true := by decide

inductive TagMatch
  | all
  | any
  deriving DecidableEq, Repr

/-- `FilterOp`, with the value it carries. A relative window is a `between` by the time a
source sees it. -/
inductive FilterOp (α : Type)
  | eq (v : α)
  | isIn (vs : List α)
  | between (lo hi : α)
  | gte (v : α)
  | lte (v : α)
  deriving DecidableEq, Repr

inductive QueryFilter
  | date (op : FilterOp Int)
  | amount (op : FilterOp Rat)
  | categoryId (op : FilterOp Int)
  | accountId (op : FilterOp Int)
  | txnType (op : FilterOp TransactionType)
  | status (op : FilterOp TransactionStatus)
  | accountType (op : FilterOp Int)
  | currency (op : FilterOp String)
  | transfer (op : FilterOp Bool)
  | accountActive (op : FilterOp Bool)
  | balance (op : FilterOp Rat)
  | frequency (op : FilterOp String)
  | recurringActive (op : FilterOp Bool)
  | tagName (op : FilterOp String) (tagMatch : TagMatch)

def FilterOp.value {α : Type} : FilterOp α → String
  | .eq _ => "eq"
  | .isIn _ => "in"
  | .between _ _ => "between"
  | .gte _ => "gte"
  | .lte _ => "lte"

/-- The values an `eq` or an `in` names. -/
def FilterOp.named {α : Type} : FilterOp α → List α
  | .isIn vs => vs
  | .eq v | .gte v | .lte v => [v]
  | .between lo hi => [lo, hi]

/-- The field of a filter and its op, as the catalog spells them. -/
def QueryFilter.fieldAndOp : QueryFilter → String × String
  | .date op => ("date", op.value)
  | .amount op => ("amount", op.value)
  | .categoryId op => ("category_id", op.value)
  | .accountId op => ("account_id", op.value)
  | .txnType op => ("txn_type", op.value)
  | .status op => ("status", op.value)
  | .accountType op => ("account_type", op.value)
  | .currency op => ("currency", op.value)
  | .transfer op => ("transfer", op.value)
  | .accountActive op => ("account_active", op.value)
  | .balance op => ("balance", op.value)
  | .frequency op => ("frequency", op.value)
  | .recurringActive op => ("recurring_active", op.value)
  | .tagName op _ => ("tag_name", op.value)

inductive SortDir
  | asc
  | desc
  deriving DecidableEq, Repr

inductive SortBy
  | value
  | dimension
  deriving DecidableEq, Repr

structure SortSpec where
  column : SortBy := .value
  dir : SortDir := .desc

def maxLimit : Nat := 500
def maxFilters : Nat := 20
def maxInValues : Nat := 200
def maxDimensions : Nat := 2
def maxDateWindowDays : Int := 5 * 365 + 2

/-- An `in` names one value at least and not too many. -/
def FilterOp.Sized {α : Type} : FilterOp α → Prop
  | .isIn vs => vs ≠ [] ∧ vs.length ≤ maxInValues
  | _ => True

/-- `Filter._validate_value`, as far as it bounds a coerced value. -/
def QueryFilter.Valid : QueryFilter → Prop
  | .date (.between start stop) => start ≤ stop ∧ stop - start ≤ maxDateWindowDays
  | .date op => op.Sized
  | .amount op | .balance op => op.Sized
  | .categoryId op | .accountId op | .accountType op => op.Sized
  | .txnType op => op.Sized
  | .status op => op.Sized
  | .currency op | .frequency op | .tagName op _ => op.Sized
  | .transfer op | .accountActive op | .recurringActive op => op.Sized

structure ReportsQuery where
  measure : Measure
  dimensions : List Dimension := []
  filters : List QueryFilter := []
  sort : Option SortSpec := none
  limit : Nat := 100
  includeNonReportable : Bool := false
  fewDimensions : dimensions.length ≤ maxDimensions := by decide
  fewFilters : filters.length ≤ maxFilters := by decide
  validFilters : ∀ f ∈ filters, f.Valid
  positiveLimit : 1 ≤ limit := by decide
  cappedLimit : limit ≤ maxLimit := by decide

/-! ## The catalog -/

/-- `_DIMENSIONS` of the transactions source. -/
def publishedDimensions : List Dimension :=
  [.category, .categoryMaster, .account, .currency, .accountType, .tag, .txnType, .status, .month, .week, .day]

/-- The fields of `_MEASURES`. -/
def publishedMeasureFields : List MeasureField := [.amount, .id, .netAmount]

/-- `_FILTERS`: each field with its ops. -/
def publishedFilters : List (String × List String) :=
  [("date", ["between", "gte", "lte"]), ("amount", ["between", "gte", "lte", "eq"]),
   ("category_id", ["eq", "in"]), ("account_id", ["eq", "in"]), ("currency", ["eq", "in"]),
   ("transfer", ["eq"]), ("txn_type", ["eq", "in"]), ("status", ["eq"]), ("tag_name", ["eq", "in"])]

def sharedCanvasFilterFields : List String := ["date", "account_id", "category_id", "status"]

def validateFilter (f : QueryFilter) : Except String Unit :=
  match publishedFilters.lookup f.fieldAndOp.1 with
  | some ops =>
    refuse (f.fieldAndOp.2 ∉ ops)
      s!"source 'transactions' filter '{f.fieldAndOp.1}' does not support op '{f.fieldAndOp.2}'"
  | none =>
    refuse (f.fieldAndOp.1 ∉ sharedCanvasFilterFields)
      s!"source 'transactions' does not support filter field '{f.fieldAndOp.1}'"

/-- `TransactionsSource.validate`. -/
def validateQuery (ast : ReportsQuery) : Except String Unit := do
  ast.dimensions.forM fun dim =>
    refuse (dim ∉ publishedDimensions) s!"source 'transactions' does not support dimension '{dim.value}'"
  refuse (ast.measure.field ∉ publishedMeasureFields)
    s!"source 'transactions' does not support measure field '{ast.measure.field.value}'"
  ast.filters.forM validateFilter
  refuse (ast.measure.field = .netAmount ∧ ast.measure.agg ≠ .sum)
    s!"source 'transactions' measure 'net_amount' must use agg 'sum', not '{ast.measure.agg.value}'"

/-! ## Transfers and currencies -/

/-- `reciprocal_transfer_filter`. -/
def reciprocalTransferFilter (rows : Table Transaction) (row : Row) : Bool :=
  isReciprocalPair row (row.2.linkedTransactionId.bind fun l => (rows.get? l).map (fun p => (l, p)))

/-- `_asks_for_transfers`. -/
def asksForTransfers (ast : ReportsQuery) : Bool :=
  ast.filters.any fun
    | .transfer (.eq v) | .transfer (.gte v) | .transfer (.lte v) => v
    | _ => false

def reportabilityBasePromoted (ast : ReportsQuery) : Bool := ast.includeNonReportable || asksForTransfers ast

/-- `_reportability_base`: transfers and adjustments only when they are asked for. -/
def reportabilityBase (ast : ReportsQuery) (rows : Table Transaction) (row : Row) : Bool :=
  if reportabilityBasePromoted ast then balanceContributionFilter rows row else reportableTransactionFilter row

/-- `_selected_currencies`; `none` is unrestricted. -/
def selectedCurrencies (ast : ReportsQuery) : Option (List String) :=
  ast.filters.foldl (fun selected f =>
    match f, selected with
    | .currency op, none => some op.named
    | .currency op, some codes => some (codes.filter (op.named.contains ·))
    | _, _ => selected) none

inductive CurrencyMode
  | scoped
  | partitioned
  | mixed
  deriving DecidableEq, Repr

def currencyMode (ast : ReportsQuery) : CurrencyMode :=
  if .currency ∈ ast.dimensions then .partitioned
  else
    match selectedCurrencies ast with
    | none => .scoped
    | some codes => if codes.dedup.length = 1 then .partitioned else .mixed

/-- `_currency_key`: trimmed of blanks, in capitals. -/
def currencyKey (currency : String) : String :=
  let stripped := ((currency.toList.dropWhile (· == ' ')).reverse.dropWhile (· == ' ')).reverse
  String.ofList (stripped.map Char.toUpper)

/-! ## Selection -/

section Compile

variable {κ : Type} [LinearOrder κ] (env : ReportsEnv κ) (db : ReportsDb) (orgId : Nat)
  (ast : ReportsQuery)

/-- `_apply_scalar_filter`. -/
def FilterOp.holds {α : Type} [DecidableEq α] (le : α → α → Bool) : FilterOp α → α → Bool
  | .eq v, x => x == v
  | .isIn vs, x => vs.contains x
  | .between lo hi, x => le lo x && le x hi
  | .gte v, x => le v x
  | .lte v, x => le x v

/-- The tags of a transaction. -/
def tagsOf (id : Nat) : List NamedTag :=
  (db.transactionTags.filter (fun link => link.1 == id)).filterMap (fun link => db.tags.get? link.2)

/-- `_apply_currency_filter`. -/
def currencyFilter (codes : List String) (tx : Transaction) : Bool :=
  (findAccount db.toDb orgId tx.accountId).any (fun a =>
    codes.any (fun code => env.collate (currencyKey a.currency) == env.collate code))

/-- `_apply_tag_filter`: every name of the list, or one of them. -/
def tagFilter (op : FilterOp String) (tagMatch : TagMatch) (row : Row) : Bool :=
  let names := dedupe (op.named.filter (· ≠ ""))
  let carried := ((tagsOf db row.1).filter (·.orgId == orgId)).map (fun t => env.collate t.nameNormalized)
  let matched := carried.filter (fun key => names.any (fun name => env.collate name == key))
  if names = [] then true
  else
    match tagMatch with
    | .any => matched ≠ []
    | .all => matched.dedup.length = names.length

/-- One filter of the query on a row. Enumerations are compared by no published op but
`eq` and `in`, and the last five fields are not published. -/
def passesFilter (row : Row) : QueryFilter → Bool
  | .date op => op.holds (· ≤ ·) (effectivePeriodDate row.2)
  | .amount op => op.holds (· ≤ ·) (row.2.amount.val / 100 : Rat)
  | .categoryId op => op.holds (· ≤ ·) (row.2.categoryId : Int)
  | .accountId op => op.holds (· ≤ ·) (row.2.accountId : Int)
  | .txnType op => op.holds (fun _ _ => false) row.2.type
  | .status op => op.holds (fun _ _ => false) row.2.status
  | .currency op => currencyFilter env db orgId op.named row.2
  | .transfer op => op.named.all (fun v => reciprocalTransferFilter db.transactions row == v)
  | .tagName op tagMatch => tagFilter env db orgId op tagMatch row
  | .accountType _ | .accountActive _ | .balance _ | .frequency _ | .recurringActive _ => true

/-- The WHERE of `compile_ast_to_query`. -/
def selects (row : Row) : Bool :=
  row.2.orgId == orgId && reportabilityBase ast db.transactions row &&
    (currencyMode ast != .scoped ||
      orgCurrencyFilter db.toDb orgId (resolveCurrencyScope db.toDb orgId) row.2.accountId) &&
    ast.filters.all (passesFilter env db orgId row)

/-! ## Grouping -/

/-- A transaction, with one of its tags where the query joins them. -/
structure JoinedRow where
  row : Row
  tag : Option NamedTag

/-- The year and the number of the ISO week of a day. -/
def isoWeek (day : Int) : Int × Int :=
  let thursday := day - (day - 1) % 7 + 3
  (yearOf thursday, (thursday - daysBeforeYear (yearOf thursday) - 1) / 7 + 1)

/-- `coalesce(parent.name, category.name)`. -/
def masterName (category : Category) : String :=
  ((category.parentId.bind (db.categories.get? ·)).map (·.name)).getD category.name

/-- `_dimension_expr` over the joins it needs: a row that joins nothing has no value. -/
def dimensionValue (joined : JoinedRow) : Dimension → Option DimensionValue
  | .category => (db.categories.get? joined.row.2.categoryId).map (fun c => .text (env.collate c.name))
  | .categoryMaster =>
    (db.categories.get? joined.row.2.categoryId).map (fun c => .text (env.collate (masterName db c)))
  | .account => (db.accounts.get? joined.row.2.accountId).map (fun a => .text (env.collate a.name))
  | .currency =>
    (db.accounts.get? joined.row.2.accountId).map (fun a => .text (env.collate (currencyKey a.currency)))
  | .accountType =>
    (db.accounts.get? joined.row.2.accountId).bind fun _ =>
      (db.accountTypes.get? (db.accountTypeId joined.row.2.accountId)).map (fun name => .text (env.collate name))
  | .tag => joined.tag.map (fun t => .text (env.collate t.name))
  | .txnType => some (.txnType joined.row.2.type)
  | .status => some (.status joined.row.2.status)
  | .month => some (.month (monthOf (effectivePeriodDate joined.row.2)))
  | .week =>
    let (year, week) := isoWeek (effectivePeriodDate joined.row.2)
    some (.week year week)
  | .day => some (.day (effectivePeriodDate joined.row.2))
  | .accountActive | .frequency | .recurringActive => none

/-- The group of a joined row. -/
def reportGroupKey (joined : JoinedRow) : Option (List DimensionValue) :=
  ast.dimensions.mapM (dimensionValue env db joined)

/-- What a row becomes under the joins: one row for each of its tags, where tags are joined. -/
def joinTags (row : Row) : List JoinedRow :=
  if .tag ∈ ast.dimensions then (tagsOf db row.1).map (fun t => ⟨row, some t⟩) else [⟨row, none⟩]

/-- The selected rows, each with its group. -/
def keyedRows : List (List DimensionValue × Row) :=
  (db.transactions.select (fun id tx => selects env db orgId ast (id, tx))).flatMap fun row =>
    (joinTags db ast row).filterMap (fun joined => (reportGroupKey env db ast joined).map (fun key => (key, row)))

/-- A row of the result, with the rows it aggregates. -/
structure Bucket where
  key : List DimensionValue
  rows : List Row

/-- The rows of one group. -/
def bucketOf (key : List DimensionValue) : Bucket :=
  ⟨key, ((keyedRows env db orgId ast).filter (fun p => p.1 = key)).map Prod.snd⟩

/-- GROUP BY; without a dimension everything is one row, even nothing at all. -/
def buckets : List Bucket :=
  if ast.dimensions = [] then [bucketOf env db orgId ast []]
  else ((keyedRows env db orgId ast).map Prod.fst).dedup.map (bucketOf env db orgId ast)

/-! ## Measures -/

/-- `signed_amount_expr`. -/
def signedAmountExpr (tx : Transaction) : Rat :=
  if tx.type = .income then tx.amount.val / 100 else -(tx.amount.val / 100)

/-- `col_map` of `_measure_expr`; the catalog publishes no other field. -/
def measureColumn (row : Row) : MeasureField → Rat
  | .amount => row.2.amount.val / 100
  | .id => row.1
  | .categoryId => row.2.categoryId
  | .accountId => row.2.accountId
  | .netAmount => signedAmountExpr row.2
  | _ => 0

/-- `_measure_expr` on a bucket. -/
def measureValue (bucket : Bucket) : Rat :=
  let column := bucket.rows.map (measureColumn · ast.measure.field)
  match ast.measure.agg with
  | .sum => column.sum
  | .count => column.length
  | .avg => if column = [] then 0 else env.roundAverage (column.sum / column.length)
  | .distinct => column.dedup.length

/-! ## The page -/

def SortDir.le {α : Type} [LE α] (dir : SortDir) (x y : α) : Prop :=
  match dir with
  | .asc => x ≤ y
  | .desc => y ≤ x

instance {α : Type} [LE α] [DecidableLE α] (dir : SortDir) : DecidableRel (dir.le (α := α)) :=
  fun x y =>
    match dir with
    | .asc => inferInstanceAs (Decidable (x ≤ y))
    | .desc => inferInstanceAs (Decidable (y ≤ x))

/-- Where the first dimension stands in its order. -/
def firstRank (bucket : Bucket) : WithBot κ := bucket.key.head?.map env.rank

/-- ORDER BY: by the first dimension, or by the value, largest first unless asked otherwise. -/
def orderedBefore (b c : Bucket) : Prop :=
  let sort := ast.sort.getD {}
  if sort.column = .dimension then sort.dir.le (firstRank env b) (firstRank env c)
  else sort.dir.le (measureValue env ast b) (measureValue env ast c)

instance : DecidableRel (orderedBefore env ast) :=
  fun b c => inferInstanceAs (Decidable (if (ast.sort.getD {}).column = .dimension then
    (ast.sort.getD {}).dir.le (firstRank env b) (firstRank env c)
  else (ast.sort.getD {}).dir.le (measureValue env ast b) (measureValue env ast c)))

def mixedCurrencyWarning : String :=
  "Multiple currencies held; this figure adds them together, because the " ++
  "filter selected several and the rows are not grouped by currency. Add " ++
  "Currency as a dimension to separate them."

/-- `currency_warning`: what the scope left out, where it left something out. -/
def currencyWarning : Option String :=
  let scope := resolveCurrencyScope db.toDb orgId
  let excluded := (db.accounts.select (fun _ a =>
    a.orgId == orgId && some (normaliseCurrency a.currency) != scope.currency)).map (fun a => a.2.currency)
  let shown := scope.currency.getD "None"
  let accounts := if scope.excludedAccountCount = 1 then "account" else "accounts"
  let others := ", ".intercalate (excluded.dedup.insertionSort (· ≤ ·))
  if scope.excludedAccountCount = 0 then none
  else some (s!"Multiple currencies held; showing {shown} only ({scope.excludedAccountCount} {accounts} " ++
    s!"in {others} excluded, because currencies are never summed).")

/-- `_currency_notice`. -/
def currencyNotice : Option String :=
  match currencyMode ast with
  | .scoped => currencyWarning db orgId
  | .partitioned => none
  | .mixed => some mixedCurrencyWarning

def transferNoticeText : String :=
  "Shows both sides of every transfer, so totals and counts count each one " ++
  "twice. Break down by Account to see the money move."

/-- `_legs_separated`. -/
def legsSeparated : Bool :=
  .account ∈ ast.dimensions || .txnType ∈ ast.dimensions ||
    ast.filters.any (fun f => match f with | .accountId _ => true | _ => false)

/-- `_transfer_notice`. -/
def transferNotice : Option String :=
  if reportabilityBasePromoted ast && !legsSeparated ast then some transferNoticeText else none

inductive TruncatedEnd
  | lowestRanked
  | highestRanked
  | oldest
  | newest
  deriving DecidableEq, Repr

def resolveTruncatedEnd : Option TruncatedEnd :=
  let sort := ast.sort.getD {}
  match sort.column, sort.dir with
  | .value, .desc => some .lowestRanked
  | .value, .asc => some .highestRanked
  | .dimension, dir =>
    if ast.dimensions.head?.any (· ∈ [Dimension.month, .week, .day]) then
      some (if dir = .asc then .newest else .oldest)
    else none

structure QueryMeta where
  rowCount : Nat
  truncated : Bool
  truncatedEnd : Option TruncatedEnd
  warning : Option String

/-- What `compile_ast_to_query` raises. -/
def compilable : Except String Unit := do
  ast.filters.forM fun
    | .currency op => refuse (op.value ∉ ["eq", "in"]) s!"currency: unsupported op '{op.value}'"
    | .transfer op => refuse (op.value ≠ "eq") s!"transfer: unsupported op '{op.value}'"
    | .tagName op _ =>
      refuse (op.value ∉ ["eq", "in"]) s!"tag_name filter only supports op='eq' / op='in'; got '{op.value}'"
    | _ => .ok ()
  refuse ((ast.sort.getD {}).column = .dimension ∧ ast.dimensions = [])
    "sort.by='dimension' requires at least one dimension"

/-- `execute_query` on the groups as the database arranged them: one more than the limit
is fetched to tell whether there was more. -/
def answerOf (arranged : List Bucket) : List Bucket × QueryMeta :=
  let cap := min ast.limit maxLimit
  let fetched := arranged.take (cap + 1)
  let truncated := decide (cap < fetched.length)
  let rows := fetched.take cap
  let parts := (currencyNotice db orgId ast).toList ++ (transferNotice ast).toList
  (rows,
   { rowCount := rows.length
     truncated := truncated
     truncatedEnd := if truncated then resolveTruncatedEnd ast else none
     warning := if parts = [] then none else some (" ".intercalate parts) })

/-- An answer the query can get: the groups come in an order ORDER BY allows. -/
def QueryAnswers (answer : List Bucket × QueryMeta) : Prop :=
  validateQuery ast = .ok () ∧ compilable ast = .ok () ∧
    ∃ arranged : List Bucket, arranged.Perm (buckets env db orgId ast) ∧
      arranged.Pairwise (orderedBefore env ast) ∧ answer = answerOf db orgId ast arranged

end Compile

end BetterDecision
