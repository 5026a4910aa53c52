import Mathlib.Algebra.Order.Field.Rat
import BetterDecision.Model.ReportSeries

/-!
# Bars broken down by a second dimension

`pivotBySecondaryDimension` of `lib/reports/series.ts` and `lib/reports/breakdown.ts`: one
query over two dimensions as rows of bars, the bars that are kept, and the slices they are
cut into. Amounts are exact numbers; how the browser collates labels is a parameter.
-/

namespace BetterDecision

open InOrder

/-- `a.localeCompare(b) <= 0`. -/
structure Collation where
  le : JsString → JsString → Bool
  trans : ∀ a b c, le a b = true → le b c = true → le a c = true
  total : ∀ a b, (le a b || le b a) = true

/-- A key of a row's numbers: the generated `s0`, `s1`, …, and `OTHER_KEY`. -/
inductive SeriesKey
  | s (i : Nat)
  | other
  deriving DecidableEq

/-- A bar: its label, and its numbers by key. A key it lacks reads as 0. -/
structure BreakdownRow where
  label : JsString
  numeric : SeriesKey → ℚ

/-! ## The pivot -/

structure Pivot where
  rows : List (JsString × BreakdownRow)
  secondaryValues : List JsString

def addCell (key : SeriesKey) (value : ℚ) (row : BreakdownRow) : BreakdownRow :=
  { row with numeric := fun k => if k = key then row.numeric k + value else row.numeric k }

section Pivot

variable (J : JsNumbers ℚ) (primaryKey secondaryKey : Dimension)

/-- One row of the query. A secondary value keeps the number it gets when it first comes. -/
def pivotRow (p : Pivot) (row : QueryRow ℚ) : Pivot :=
  let label := readLabel J row primaryKey
  let secondary := readLabel J row secondaryKey
  let secondaryValues := addKey p.secondaryValues secondary
  let seriesKey := SeriesKey.s (secondaryValues.idxOf secondary)
  { rows := upsert label (fun existing =>
      addCell seriesKey (readNumber J row.value) (existing.getD ⟨label, fun _ => 0⟩)) p.rows
    secondaryValues }

/-- `pivotBySecondaryDimension`. -/
def pivotBySecondaryDimension (rows : List (QueryRow ℚ)) : Pivot :=
  rows.foldl (pivotRow J primaryKey secondaryKey) { rows := [], secondaryValues := [] }

end Pivot

def seriesKeysOf (secondaryValues : List JsString) : List SeriesKey :=
  (List.range secondaryValues.length).map .s

/-! ## The bars that are kept -/

def rowTotal (row : BreakdownRow) (keys : List SeriesKey) : ℚ := (keys.map row.numeric).sum

def isTimeDimension : Dimension → Bool
  | .month | .week | .day => true
  | _ => false

/-- `rows.slice(-cap)`; `-0` is the start. -/
def lastOf {α : Type} (cap : Nat) (rows : List α) : List α := if cap = 0 then rows else rows.drop (rows.length - cap)

/-- `capPrimaryBuckets`. -/
def capPrimaryBuckets (C : Collation) (rows : List BreakdownRow) (seriesKeys : List SeriesKey) (primaryKey : Dimension)
    (cap : Nat) (sort : Option SortSpec) : List BreakdownRow :=
  if isTimeDimension primaryKey then lastOf cap (rows.mergeSort fun a b => C.le a.label b.label)
  else if sort.map (·.column) = some .dimension then rows.take cap
  else if sort.map (·.dir) = some .asc then
    (rows.mergeSort fun a b => rowTotal a seriesKeys ≤ rowTotal b seriesKeys).take cap
  else (rows.mergeSort fun a b => rowTotal b seriesKeys ≤ rowTotal a seriesKeys).take cap

/-! ## The slices -/

def defaultPrimaryCap : Nat := 100

/-- `CHART_SERIES` -/
def chartSeries : List String :=
  ["var(--color-chart-1)", "var(--color-chart-2)", "var(--color-chart-3)", "var(--color-chart-4)",
    "var(--color-chart-5)", "var(--color-chart-6)", "var(--color-chart-7)", "var(--color-chart-8)"]

def otherLabel : JsString := units ['O', 't', 'h', 'e', 'r']

def otherColor : String := "var(--color-border-strong)"

/-- A secondary value with its key and what it comes to in the bars that are kept. -/
structure Slice where
  label : JsString
  key : SeriesKey
  total : ℚ

structure Breakdown where
  rows : List BreakdownRow
  secondaryValues : List JsString
  seriesKeys : List SeriesKey
  sliceColors : List String
  csvValues : List JsString
  csvKeys : List SeriesKey

/-- The secondary values that come to something in the bars that are kept. -/
def liveSlices (pivot : Pivot) (rows : List BreakdownRow) : List Slice :=
  (pivot.secondaryValues.zipIdx.map fun (label, i) =>
    { label, key := .s i, total := (rows.map (·.numeric (.s i))).sum }).filter (·.total ≠ 0)

def byLabel (C : Collation) (slices : List Slice) : List Slice := slices.mergeSort fun a b => C.le a.label b.label

def byTotalDesc (slices : List Slice) : List Slice := slices.mergeSort fun a b => b.total ≤ a.total

/-- The tail's numbers under `OTHER_KEY`. -/
def foldTail (tail : List Slice) (row : BreakdownRow) : BreakdownRow :=
  { row with numeric := fun k => if k = .other then (tail.map fun s => row.numeric s.key).sum else row.numeric k }

/-- `buildBreakdown`. -/
def buildBreakdown (J : JsNumbers ℚ) (C : Collation) (queryRows : List (QueryRow ℚ)) (primaryKey secondaryKey : Dimension)
    (limit : Option Nat) (sort : Option SortSpec) : Breakdown :=
  let pivot := pivotBySecondaryDimension J primaryKey secondaryKey queryRows
  let cap := limit.getD defaultPrimaryCap
  let rows := capPrimaryBuckets C (pivot.rows.map Prod.snd) (seriesKeysOf pivot.secondaryValues) primaryKey cap sort
  let live := liveSlices pivot rows
  let csv := byLabel C live
  let folds := chartSeries.length < live.length
  let headSize := chartSeries.length - 1
  let head := if folds then (byTotalDesc live).take headSize else live
  let tail := if folds then (byTotalDesc live).drop headSize else []
  let rendered := byLabel C head
  { rows := if folds then rows.map (foldTail tail) else rows
    secondaryValues := rendered.map (·.label) ++ if folds then [otherLabel] else []
    seriesKeys := rendered.map (·.key) ++ if folds then [.other] else []
    sliceColors := chartSeries.take rendered.length ++ if folds then [otherColor] else []
    csvValues := csv.map (·.label)
    csvKeys := csv.map (·.key) }

end BetterDecision
