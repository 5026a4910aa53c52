import BetterDecision.Lib.InOrder
import BetterDecision.Model.JsText
import BetterDecision.Model.ReportsQuery

/-!
# Rows of reports

`lib/reports/series.ts`: the rows of a query, one response per series merged for a table,
and one response over two dimensions pivoted for bars. Amounts are numbers of any type that
adds them exactly; how the browser writes a number and reads one is a parameter.
-/

namespace BetterDecision

open InOrder

/-- A cell of a response. A field a row lacks is read as `null` is. -/
inductive QueryCell (ν : Type)
  | null
  | text (s : JsString)
  | number (n : ν)

/-- A row of a response: its labels by dimension, and its value. -/
structure QueryRow (ν : Type) where
  cells : Dimension → QueryCell ν
  value : QueryCell ν

/-- `String(n)`, and `Number(s)` where it is finite. -/
structure JsNumbers (ν : Type) where
  write : ν → JsString
  read : JsString → Option ν

variable {ν : Type}

def noLabel : JsString := units ['—']

/-- `readLabel`. -/
def readLabel (J : JsNumbers ν) (row : QueryRow ν) (key : Dimension) : JsString :=
  match row.cells key with
  | .null => noLabel
  | .text s => s
  | .number n => J.write n

/-- `readNumber`. -/
def readNumber [Zero ν] (J : JsNumbers ν) : QueryCell ν → ν
  | .null => 0
  | .text s => (J.read s).getD 0
  | .number n => n

/-! ## A table of several series -/

/-- What `join` puts between the labels of a row's key. -/
def tupleSeparator : JsString := [1]

def readLabels (J : JsNumbers ν) (dimensions : List Dimension) (row : QueryRow ν) : List JsString :=
  dimensions.map (readLabel J row)

/-- `dimensionValues.join("\u0001")` -/
def joinLabels (labels : List JsString) : JsString := tupleSeparator.intercalate labels

/-- A row of the table: its labels in the order of the dimensions, and the series it has a
value of, under their keys `s0`, `s1`, …, which are no dimension's. -/
structure TableRow (ν : Type) where
  labels : List JsString
  series : Nat → Option ν

/-- A row of the series `i`: `existing[key] = …`, on a new row with these labels where there
is none. -/
def setSeries (i : Nat) (labels : List JsString) (value : ν) (existing : Option (TableRow ν)) : TableRow ν :=
  let existing := existing.getD ⟨labels, fun _ => none⟩
  { existing with series := fun j => if j = i then some value else existing.series j }

/-- The rows of all responses, with the series they are of. -/
def seriesRows (series : List (Option (List (QueryRow ν)))) : List (Nat × QueryRow ν) :=
  series.zipIdx.flatMap fun (response, i) => (response.getD []).map (i, ·)

/-- The rows of the table before they are filled with zeros. -/
def mergedRows [Zero ν] (J : JsNumbers ν) (series : List (Option (List (QueryRow ν)))) (dimensions : List Dimension) :
    List (JsString × TableRow ν) :=
  fill (fun e => joinLabels (readLabels J dimensions e.2))
    (fun e => setSeries e.1 (readLabels J dimensions e.2) (readNumber J e.2.value)) (seriesRows series)

/-- A row of the finished table. -/
structure FilledRow (ν : Type) where
  labels : List JsString
  values : List ν

/-- `mergeSeriesRowsForTable`, with a key for each series. -/
def mergeSeriesRowsForTable [Zero ν] (J : JsNumbers ν) (series : List (Option (List (QueryRow ν))))
    (dimensions : List Dimension) : List (FilledRow ν) :=
  (mergedRows J series dimensions).map fun p =>
    { labels := p.2.labels, values := (List.range series.length).map fun i => (p.2.series i).getD 0 }

end BetterDecision
