import Mathlib.Data.List.FinRange
import Mathlib.Data.List.Sort
import Mathlib.Data.Prod.Lex
import Mathlib.Order.Lex
import Mathlib.Data.List.Lex
import BetterDecision.Model.Billing
import BetterDecision.Model.CardForecast

/-!
# What is wrong with a roster

`find_period_anomalies`: every marker of an org's billing periods, from the whole roster
and a clock. A gap is between neighbours, an overlap between any two rows, and a row that
ends before it starts is reported as that and nothing else.
-/

namespace BetterDecision

/-- `OVERLAP_ANALYSIS_CAP`: at exactly the cap the analysis runs. -/
def overlapAnalysisCap : Nat := 2000

/-- `OVERLAP_EMISSION_CAP`: at exactly the cap nothing is suppressed. -/
def overlapEmissionCap : Nat := 5000

structure RosterRow where
  id : Nat
  startDate : Int
  endDate : Option Int
  deriving DecidableEq

/-- Every period of an org, by start. The order is strict under the unique constraint on
`(org_id, start_date)`. -/
structure CompleteRoster where
  orgId : Nat
  rows : List RosterRow
  dated : ∀ row ∈ rows, row.startDate ≤ dateMax
  ascending : rows.Pairwise (fun p q => p.startDate < q.startDate)
  idsUnique : (rows.map (·.id)).Nodup

/-- The rows of `load_complete_roster`: no limit, no window. -/
def loadCompleteRoster (db : Db) (orgId : Nat) : List RosterRow :=
  ((periodsOf db orgId).map (fun p => { id := p.1, startDate := p.2.startDate, endDate := p.2.endDate })).insertionSort
    (fun p q => p.startDate ≤ q.startDate)

inductive AnomalyKind
  | gap
  | overlap
  | duplicateOpen
  | noOpen
  | inverted
  | straddling
  | lapsedOpen
  | overlapAnalysisSkipped
  | overlapEmissionCapped
  deriving DecidableEq

/-- `_KIND_ORDER`. -/
def AnomalyKind.order : AnomalyKind → Nat
  | .gap => 0
  | .overlap => 1
  | .duplicateOpen => 2
  | .noOpen => 3
  | .inverted => 4
  | .straddling => 5
  | .lapsedOpen => 6
  | .overlapAnalysisSkipped => 7
  | .overlapEmissionCapped => 8

/-- One marker. Which fields it has depends on its kind. -/
structure PeriodAnomaly where
  kind : AnomalyKind
  fromPeriodId : Option Nat := none
  toPeriodId : Option Nat := none
  periodId : Option Nat := none
  periodIds : Option (List Nat) := none
  anchorPeriodId : Option Nat := none
  fromDate : Option Int := none
  toDate : Option Int := none
  effectiveEnd : Option Int := none
  periodCount : Option Nat := none
  overlapCount : Option Nat := none
  cap : Option Nat := none
  deriving DecidableEq

abbrev CompleteRoster.Index (roster : CompleteRoster) : Type := Fin roster.rows.length

def CompleteRoster.row (roster : CompleteRoster) (i : roster.Index) : RosterRow := roster.rows.get i

def CompleteRoster.indexes (roster : CompleteRoster) : List roster.Index := List.finRange roster.rows.length

/-- The row after, where there is one. -/
def CompleteRoster.next (roster : CompleteRoster) (i : roster.Index) : Option RosterRow := roster.rows[i.val + 1]?

/-- The three cases of `period_effective_end`, in memory. -/
def kernelDerivedEnd (roster : CompleteRoster) (i : roster.Index) : Option Int :=
  match (roster.row i).endDate with
  | some endDate => some endDate
  | none => (roster.next i).map (·.startDate - 1)

def isInverted (row : RosterRow) : Bool :=
  match row.endDate with
  | some endDate => decide (endDate < row.startDate)
  | none => false

/-! ## The order of the markers -/

/-- `_SORT_EPOCH`, 0001-01-01. -/
def sortEpoch : Int := 1

abbrev SortKey : Type := Nat ×ₗ Nat ×ₗ List Nat ×ₗ Nat ×ₗ Int

/-- The ids a marker references. -/
def PeriodAnomaly.ids (a : PeriodAnomaly) : List Nat :=
  [a.fromPeriodId, a.toPeriodId, a.periodId, a.anchorPeriodId].reduceOption ++ a.periodIds.getD []

def anomalySortKey (a : PeriodAnomaly) : SortKey :=
  toLex (a.kind.order, toLex (if a.ids.isEmpty then 1 else 0, toLex (a.ids.insertionSort (· ≤ ·),
    toLex (if a.fromDate.isSome then 0 else 1, a.fromDate.getD sortEpoch))))

/-! ## The rules -/

variable (roster : CompleteRoster)

def invertedMarkers : List PeriodAnomaly :=
  (roster.indexes.filter (fun i => isInverted (roster.row i))).map
    (fun i => { kind := .inverted, periodId := (roster.row i).id })

/-- The gap between a row and the next. A row with no end, or next to an inverted one, has
none. -/
def gapAfter (i : roster.Index) : Result (Option PeriodAnomaly) :=
  match roster.next i, kernelDerivedEnd roster i with
  | some next, some leftEnd =>
    if isInverted (roster.row i) || isInverted next then .ok none
    else do
      let dayAfterEnd ← dayAfter leftEnd
      if dayAfterEnd < next.startDate then
        .ok (some { kind := .gap, fromPeriodId := (roster.row i).id, toPeriodId := next.id
                    fromDate := dayAfterEnd, toDate := some (next.startDate - 1) })
      else .ok none
  | _, _ => .ok none

/-- The state of the scan over all pairs. -/
structure OverlapScan where
  anomalies : List PeriodAnomaly := []
  emitted : Nat := 0
  overlapCount : Nat := 0

def overlapMarker (left right : RosterRow) (leftEnd : Int) : PeriodAnomaly :=
  { kind := .overlap, fromPeriodId := left.id, toPeriodId := right.id
    fromDate := right.startDate, toDate := leftEnd }

/-- One pair. The scan goes on past the ceiling, and counts. -/
def scanPair (scan : OverlapScan) (pair : roster.Index × roster.Index) : OverlapScan :=
  match kernelDerivedEnd roster pair.1 with
  | none => scan
  | some leftEnd =>
    if isInverted (roster.row pair.1) || isInverted (roster.row pair.2) then scan
    else if leftEnd < (roster.row pair.2).startDate then scan
    else if overlapEmissionCap ≤ scan.emitted then { scan with overlapCount := scan.overlapCount + 1 }
    else
      { anomalies := scan.anomalies ++ [overlapMarker (roster.row pair.1) (roster.row pair.2) leftEnd]
        emitted := scan.emitted + 1
        overlapCount := scan.overlapCount + 1 }

/-- Every row with every later one. -/
def rowPairs : List (roster.Index × roster.Index) :=
  roster.indexes.flatMap (fun i => (roster.indexes.filter (i < ·)).map (fun j => (i, j)))

def overlapMarkers : List PeriodAnomaly :=
  if overlapAnalysisCap < roster.rows.length then
    [{ kind := .overlapAnalysisSkipped, periodCount := roster.rows.length, cap := overlapAnalysisCap }]
  else
    let scan := (rowPairs roster).foldl (scanPair roster) {}
    scan.anomalies ++
      if overlapEmissionCap < scan.overlapCount then
        [{ kind := .overlapEmissionCapped, overlapCount := scan.overlapCount, cap := overlapEmissionCap }]
      else []

def openIndexes : List roster.Index := roster.indexes.filter (fun i => (roster.row i).endDate.isNone)

/-- The rows that run over the start of the open row. -/
def straddlingMarkers (anchor : roster.Index) : List PeriodAnomaly :=
  (roster.indexes.filter (fun i => decide (i ≠ anchor) &&
      match kernelDerivedEnd roster i with
      | none => false
      | some stop => decide ((roster.row i).startDate ≤ (roster.row anchor).startDate ∧
          (roster.row anchor).startDate ≤ stop))).map
    (fun i => { kind := .straddling, periodId := (roster.row i).id, anchorPeriodId := (roster.row anchor).id })

def lapsedMarkers (today : Int) (anchor : roster.Index) : List PeriodAnomaly :=
  match kernelDerivedEnd roster anchor with
  | some anchorEnd =>
    if anchorEnd < today then
      [{ kind := .lapsedOpen, periodId := (roster.row anchor).id, effectiveEnd := anchorEnd }]
    else []
  | none => []

/-- The last open row starts last: it is the one a reader of the current period gets. -/
def openMarkers (today : Int) : List PeriodAnomaly :=
  match (openIndexes roster).getLast? with
  | none => [{ kind := .noOpen, periodIds := some [] }]
  | some anchor =>
    (if 1 < (openIndexes roster).length then
      [{ kind := .duplicateOpen, periodIds := some ((openIndexes roster).map (fun i => (roster.row i).id)) }]
    else []) ++ straddlingMarkers roster anchor ++ lapsedMarkers roster today anchor

def findPeriodAnomalies (today : Int) : Result (List PeriodAnomaly) := do
  let gaps ← roster.indexes.mapM (gapAfter roster)
  .ok ((invertedMarkers roster ++ gaps.reduceOption ++ overlapMarkers roster ++ openMarkers roster today).insertionSort
    (fun a b => anomalySortKey a ≤ anomalySortKey b))

end BetterDecision
