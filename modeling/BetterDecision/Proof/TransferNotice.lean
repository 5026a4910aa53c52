import BetterDecision.Model.ReportsQuery
import BetterDecision.Proof.Books

/-!
# The report transfer notice

A report that asks for transfers counts each of them twice, unless something keeps the
two legs apart; the notice says so. Whether something does is read off the query: a
breakdown by account or by type, or a filter on accounts. A breakdown by type is exact,
since one leg is an expense and the other an income. The other two go by the wrong
thing. The breakdown is by the account's *name*, which two accounts may share, and a
filter may name both accounts.

`CountedTwice` is a pair that a query so adds up in silence. The notice is sound where
there is none (`not_sound_of_countedTwice`, `countedTwice_of_bucket`).
-/

namespace BetterDecision

open Paging

variable {κ : Type} {env : ReportsEnv κ} {db : ReportsDb} {orgId : Nat} {ast : ReportsQuery}

/-! ## The statement -/

/-- No row of an answer without the notice aggregates both legs of a pair. -/
def NoticeSound [LinearOrder κ] (env : ReportsEnv κ) (db : ReportsDb) (orgId : Nat) (ast : ReportsQuery) : Prop :=
  ∀ answer, QueryAnswers env db orgId ast answer → transferNotice ast = none → ∀ bucket ∈ answer.1,
    ∀ i a j c, Mutual db.transactions i a j c → i ≠ j → ¬ ((i, a) ∈ bucket.rows ∧ (j, c) ∈ bucket.rows)

/-- No dimension tells the two rows apart. -/
def Together (env : ReportsEnv κ) (db : ReportsDb) (ast : ReportsQuery) (x y : JoinedRow) : Prop :=
  ∀ d ∈ ast.dimensions, ∃ v, dimensionValue env db x d = some v ∧ dimensionValue env db y d = some v

/-- The columns a row is grouped by. -/
def columns (env : ReportsEnv κ) (db : ReportsDb) (ast : ReportsQuery) (x : JoinedRow) : List DimensionValue :=
  ast.dimensions.filterMap (dimensionValue env db x)

/-- The pair is added up in one row of an answer that says nothing about it. -/
structure CountedTwice [LinearOrder κ] (env : ReportsEnv κ) (db : ReportsDb) (orgId : Nat) (ast : ReportsQuery)
    (left right : Row) : Prop where
  valid : validateQuery ast = .ok ()
  compiles : compilable ast = .ok ()
  asked : reportabilityBasePromoted ast = true
  silenced : legsSeparated ast = true
  leftIn : selects env db orgId ast left = true
  rightIn : selects env db orgId ast right = true
  together : ∃ x ∈ joinTags db ast left, ∃ y ∈ joinTags db ast right, Together env db ast x y ∧
    ahead (orderedBefore env ast) (buckets env db orgId ast) (bucketOf env db orgId ast (columns env db ast x)) <
      ast.limit

/-! ## Groups -/

/-- Two traversals give one list iff they agree everywhere. -/
theorem mapM_eq_iff {α β : Type} {f g : α → Option β} {xs : List α} {ys : List β} :
    xs.mapM f = some ys ∧ xs.mapM g = some ys ↔
      (∀ x ∈ xs, ∃ v, f x = some v ∧ g x = some v) ∧ ys = xs.filterMap f := by
  induction xs generalizing ys with
  | nil => simp [eq_comm]
  | cons x xs ih =>
    constructor
    · rintro ⟨hf, hg⟩
      rw [List.mapM_cons] at hf hg
      obtain ⟨v, hv, hf⟩ := Option.bind_eq_some_iff.mp hf
      obtain ⟨vs, hvs, hys⟩ := Option.bind_eq_some_iff.mp hf
      obtain ⟨w, hw, hg⟩ := Option.bind_eq_some_iff.mp hg
      obtain ⟨ws, hws, hys'⟩ := Option.bind_eq_some_iff.mp hg
      cases hys
      obtain ⟨rfl, rfl⟩ : w = v ∧ ws = vs := by simpa using hys'
      obtain ⟨hall, hrest⟩ := ih.mp ⟨hvs, hws⟩
      exact ⟨List.forall_mem_cons.mpr ⟨⟨_, hv, hw⟩, hall⟩, by rw [List.filterMap_cons_some hv, ← hrest]⟩
    · rintro ⟨hall, rfl⟩
      obtain ⟨⟨v, hv, hw⟩, hall⟩ := List.forall_mem_cons.mp hall
      obtain ⟨hvs, hws⟩ := ih.mpr ⟨hall, rfl⟩
      rw [List.mapM_cons, List.mapM_cons, hv, hw, hvs, hws, List.filterMap_cons_some hv]
      exact ⟨rfl, rfl⟩

/-- Two rows are in one group iff no dimension tells them apart. -/
theorem reportGroupKey_eq_iff {x y : JoinedRow} {key : List DimensionValue} :
    reportGroupKey env db ast x = some key ∧ reportGroupKey env db ast y = some key ↔
      Together env db ast x y ∧ key = columns env db ast x :=
  mapM_eq_iff

theorem mem_keyedRows {key : List DimensionValue} {row : Row} :
    (key, row) ∈ keyedRows env db orgId ast ↔
      db.transactions.get? row.1 = some row.2 ∧ selects env db orgId ast row = true ∧
        ∃ x ∈ joinTags db ast row, reportGroupKey env db ast x = some key := by
  rw [keyedRows, List.mem_flatMap]
  constructor
  · rintro ⟨row', hrow', hkey⟩
    obtain ⟨x, hx, hmap⟩ := List.mem_filterMap.mp hkey
    obtain ⟨key', hkey', heq⟩ := Option.map_eq_some_iff.mp hmap
    cases heq
    rw [Table.select, List.mem_filter, Table.mem_rows] at hrow'
    exact ⟨hrow'.1, hrow'.2, x, hx, hkey'⟩
  · rintro ⟨hget, hsel, x, hx, hkey⟩
    refine ⟨row, ?_, List.mem_filterMap.mpr ⟨x, hx, by rw [hkey]; rfl⟩⟩
    rw [Table.select, List.mem_filter, Table.mem_rows]
    exact ⟨hget, hsel⟩

theorem mem_bucketOf {key : List DimensionValue} {row : Row} :
    row ∈ (bucketOf env db orgId ast key).rows ↔ (key, row) ∈ keyedRows env db orgId ast := by
  simp [bucketOf]

/-- A group that has rows is a row of the result. -/
theorem bucketOf_mem {key : List DimensionValue} {row : Row} (h : (key, row) ∈ keyedRows env db orgId ast) :
    bucketOf env db orgId ast key ∈ buckets env db orgId ast := by
  rw [buckets]
  split
  · next hnone =>
    obtain ⟨_, _, x, _, hkey⟩ := mem_keyedRows.mp h
    rw [reportGroupKey, hnone] at hkey
    cases hkey
    exact List.mem_singleton_self _
  · exact List.mem_map_of_mem (List.mem_dedup.mpr (List.mem_map_of_mem h))

theorem eq_bucketOf {bucket : Bucket} (h : bucket ∈ buckets env db orgId ast) :
    ∃ key, bucket = bucketOf env db orgId ast key := by
  rw [buckets] at h
  split at h
  · exact ⟨[], List.mem_singleton.mp h⟩
  · obtain ⟨key, _, rfl⟩ := List.mem_map.mp h
    exact ⟨key, rfl⟩

/-! ## What the notice goes by -/

/-- By default no leg of a transfer is reported. -/
theorem not_reportable {row : Row} {l : Nat} (h : row.2.linkedTransactionId = some l) :
    reportableTransactionFilter row = false := by
  simp [reportableTransactionFilter, h]

/-- A selected leg means that transfers were asked for. -/
theorem asked_of_selects {row : Row} {l : Nat} (h : row.2.linkedTransactionId = some l)
    (hsel : selects env db orgId ast row = true) : reportabilityBasePromoted ast = true := by
  have hbase : reportabilityBase ast db.transactions row = true := by
    simp only [selects, Bool.and_eq_true] at hsel
    exact hsel.1.1.2
  by_contra hnot
  rw [reportabilityBase, if_neg hnot, not_reportable h] at hbase
  cases hbase

/-- Where transfers were asked for, silence means that the legs count as separated. -/
theorem transferNotice_none_iff (hasked : reportabilityBasePromoted ast = true) :
    transferNotice ast = none ↔ legsSeparated ast = true := by
  simp [transferNotice, hasked]

/-! ## The order of the page -/

section Order

variable [LinearOrder κ]

instance (dir : SortDir) {α : Type} [LinearOrder α] : Std.Total (dir.le (α := α)) :=
  ⟨fun x y => match dir with
    | .asc => le_total x y
    | .desc => le_total y x⟩

instance (dir : SortDir) {α : Type} [LinearOrder α] : IsTrans α (dir.le (α := α)) :=
  ⟨fun _ _ _ h h' => match dir with
    | .asc => le_trans h h'
    | .desc => le_trans h' h⟩

instance : Std.Total (orderedBefore env ast) := by
  refine ⟨fun b c => ?_⟩
  simp only [orderedBefore]
  split
  · exact Std.Total.total _ _
  · exact Std.Total.total _ _

instance : IsTrans Bucket (orderedBefore env ast) := by
  refine ⟨fun b c d h h' => ?_⟩
  simp only [orderedBefore] at h h' ⊢
  split
  · next hcol =>
    rw [if_pos hcol] at h h'
    exact IsTrans.trans _ _ _ h h'
  · next hcol =>
    rw [if_neg hcol] at h h'
    exact IsTrans.trans _ _ _ h h'

/-- The rows of an answer are a page of the groups. -/
theorem answerOf_rows (arranged : List Bucket) : (answerOf db orgId ast arranged).1 = arranged.take ast.limit := by
  rw [answerOf, min_eq_left ast.cappedLimit]
  exact List.take_take.trans (by rw [min_eq_left (Nat.le_succ _)])


/-! ## The notice -/

theorem countedTwice_of_bucket {answer : List Bucket × QueryMeta} (hans : QueryAnswers env db orgId ast answer)
    (hquiet : transferNotice ast = none) {bucket : Bucket} (hbucket : bucket ∈ answer.1) {left right : Row} {l : Nat}
    (hlink : left.2.linkedTransactionId = some l) (hleft : left ∈ bucket.rows) (hright : right ∈ bucket.rows) :
    CountedTwice env db orgId ast left right := by
  obtain ⟨hvalid, hcompiles, arranged, hperm, hsorted, rfl⟩ := hans
  rw [answerOf_rows] at hbucket
  have hpage : bucket ∈ buckets env db orgId ast ∧
      ahead (orderedBefore env ast) (buckets env db orgId ast) bucket < ast.limit :=
    mem_page_iff.mp ⟨_, ⟨arranged, hperm, hsorted, rfl⟩, hbucket⟩
  obtain ⟨key, rfl⟩ := eq_bucketOf hpage.1
  obtain ⟨_, hl, x, hx, hxkey⟩ := mem_keyedRows.mp (mem_bucketOf.mp hleft)
  obtain ⟨_, hr, y, hy, hykey⟩ := mem_keyedRows.mp (mem_bucketOf.mp hright)
  obtain ⟨htogether, rfl⟩ := reportGroupKey_eq_iff.mp ⟨hxkey, hykey⟩
  have hasked := asked_of_selects hlink hl
  exact
    { valid := hvalid
      compiles := hcompiles
      asked := hasked
      silenced := (transferNotice_none_iff hasked).mp hquiet
      leftIn := hl
      rightIn := hr
      together := ⟨x, hx, y, hy, htogether, hpage.2⟩ }

theorem not_sound_of_countedTwice {i j : Nat} {a c : Transaction} (hpair : Mutual db.transactions i a j c)
    (hne : i ≠ j) (h : CountedTwice env db orgId ast (i, a) (j, c)) : ¬ NoticeSound env db orgId ast := by
  intro hsound
  obtain ⟨x, hx, y, hy, htogether, hahead⟩ := h.together
  obtain ⟨hxkey, hykey⟩ := reportGroupKey_eq_iff.mpr ⟨htogether, rfl⟩
  have hleft := mem_keyedRows.mpr ⟨hpair.left, h.leftIn, x, hx, hxkey⟩
  have hright := mem_keyedRows.mpr ⟨hpair.right, h.rightIn, y, hy, hykey⟩
  -- some arrangement of the groups has this one on the page
  obtain ⟨_, ⟨arranged, hperm, hsorted, rfl⟩, hbucket⟩ := mem_page_iff.mpr ⟨bucketOf_mem hleft, hahead⟩
  refine hsound (answerOf db orgId ast arranged) ⟨h.valid, h.compiles, arranged, hperm, hsorted, rfl⟩
    ((transferNotice_none_iff h.asked).mpr h.silenced) _ ?_ i a j c hpair hne
    ⟨mem_bucketOf.mpr hleft, mem_bucketOf.mpr hright⟩
  rw [answerOf_rows]
  exact hbucket

end Order

/-! ## Where the suppressors are right -/

theorem row_of_mem_joinTags {row : Row} {x : JoinedRow} (h : x ∈ joinTags db ast row) : x.row = row := by
  rw [joinTags] at h
  split at h
  · obtain ⟨_, _, rfl⟩ := List.mem_map.mp h
    rfl
  · rw [List.mem_singleton.mp h]

theorem passesFilter_of_selects {row : Row} {f : QueryFilter} (h : selects env db orgId ast row = true)
    (hf : f ∈ ast.filters) : passesFilter env db orgId row f = true := by
  simp only [selects, Bool.and_eq_true] at h
  exact List.all_eq_true.mp h.2 f hf

/-- A breakdown by type and a filter on one account keep the legs of every transfer apart,
since a pair has one of each and never stays on one account. -/
theorem not_countedTwice_of_paired [LinearOrder κ] {rules : Rules} (hpaired : Paired rules db.toDb.books) {i j : Nat}
    {a c : Transaction} (hpair : Mutual db.transactions i a j c)
    (happart : .txnType ∈ ast.dimensions ∨ ∃ v, .accountId (.eq v) ∈ ast.filters) :
    ¬ CountedTwice env db orgId ast (i, a) (j, c) := by
  intro h
  have hlegs : a.type ≠ c.type ∧ a.accountId ≠ c.accountId := by
    rcases hpaired i a j c hpair with ⟨legs, _⟩ | ⟨legs, _⟩
    · exact ⟨by rw [legs.expense, legs.income]; decide, legs.accounts⟩
    · exact ⟨by rw [legs.expense, legs.income]; decide, legs.accounts.symm⟩
  rcases happart with htype | ⟨v, hv⟩
  · obtain ⟨x, hx, y, hy, htogether, _⟩ := h.together
    obtain ⟨_, hxv, hyv⟩ := htogether _ htype
    rw [dimensionValue, row_of_mem_joinTags hx] at hxv
    rw [dimensionValue, row_of_mem_joinTags hy, ← hxv] at hyv
    exact hlegs.1 (by simpa using hyv.symm)
  · have hl := passesFilter_of_selects h.leftIn hv
    have hr := passesFilter_of_selects h.rightIn hv
    simp only [passesFilter, FilterOp.holds, beq_iff_eq] at hl hr
    exact hlegs.2 (Int.ofNat.inj (hl.trans hr.symm))

/-! ## Both accounts named -/

theorem transfer_amount_pos : (0 : Int) < 10000 := by decide

/-- A transfer of 100 from one account to the other. -/
def transferBooks : ReportsDb where
  accounts := (Table.empty.insert { orgId := 1, name := "Checking" }).insert { orgId := 1, name := "Savings" }
  transactions := (Table.empty.insert
    { orgId := 1, accountId := 1, categoryId := 1, description := "out", amount := ⟨10000, transfer_amount_pos⟩,
      type := .expense, linkedTransactionId := some 2, date := 738000 }).insert
    { orgId := 1, accountId := 2, categoryId := 1, description := "in", amount := ⟨10000, transfer_amount_pos⟩,
      type := .income, linkedTransactionId := some 1, date := 738000 }

/-- The total of both accounts, transfers included. -/
def bothAccounts : ReportsQuery where
  measure := { agg := .sum, field := .amount }
  filters := [.accountId (.isIn [1, 2])]
  includeNonReportable := true
  validFilters := fun f hf => by
    rw [List.mem_singleton.mp hf]
    exact ⟨by decide, by decide⟩

def bareEnv : ReportsEnv Nat := ⟨id, fun _ => 0, id⟩

end BetterDecision
