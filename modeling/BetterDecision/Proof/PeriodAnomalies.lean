import BetterDecision.Model.PeriodAnomalies
import BetterDecision.Proof.Roster

/-!
# The report is sound and complete

Nothing structural is reported iff the windows of the roster are a tiling. Neighbours that
abut are a tiling once no row is inverted, so the gap rule needs neighbours only. The overlap
rule needs all pairs: it counts the pairs of rows whose windows share a day. Each marker is
known by the ids it references, so no two share a key.

The report does not come out where a row ends on the last day of the calendar and another
follows: the gap rule asks for the day after it.
-/

namespace BetterDecision

variable {roster : CompleteRoster}

/-! ## Rows -/

theorem row_start_lt {i j : roster.Index} (h : i < j) : (roster.row i).startDate < (roster.row j).startDate :=
  List.pairwise_iff_get.mp roster.ascending i j h

theorem row_start_le {i j : roster.Index} (h : i ≤ j) : (roster.row i).startDate ≤ (roster.row j).startDate := by
  rcases h.eq_or_lt with rfl | hlt
  · exact le_rfl
  · exact (row_start_lt hlt).le

theorem row_id_inj {i j : roster.Index} (h : (roster.row i).id = (roster.row j).id) : i = j := by
  have hrow : roster.row i = roster.row j :=
    List.inj_on_of_nodup_map roster.idsUnique (List.get_mem _ _) (List.get_mem _ _) h
  rcases lt_trichotomy i j with hlt | heq | hgt
  · exact absurd (congrArg RosterRow.startDate hrow) (row_start_lt hlt).ne
  · exact heq
  · exact absurd (congrArg RosterRow.startDate hrow) (row_start_lt hgt).ne'

theorem next_eq_some {i : roster.Index} {r : RosterRow} :
    roster.next i = some r ↔ ∃ j : roster.Index, j.val = i.val + 1 ∧ r = roster.row j := by
  unfold CompleteRoster.next CompleteRoster.row
  rw [List.getElem?_eq_some_iff]
  constructor
  · rintro ⟨hlt, rfl⟩
    exact ⟨⟨i.val + 1, hlt⟩, rfl, rfl⟩
  · rintro ⟨j, hj, rfl⟩
    have hlt : i.val + 1 < roster.rows.length := hj ▸ j.isLt
    refine ⟨hlt, ?_⟩
    rw [List.get_eq_getElem]
    exact getElem_congr_idx hj.symm

theorem next_eq_none {i : roster.Index} : roster.next i = none ↔ roster.rows.length = i.val + 1 := by
  unfold CompleteRoster.next
  rw [List.getElem?_eq_none_iff]
  omega

theorem derivedEnd_closed {i : roster.Index} {e : Int} (h : (roster.row i).endDate = some e) :
    kernelDerivedEnd roster i = some e := by
  rw [kernelDerivedEnd, h]

theorem derivedEnd_open {i : roster.Index} (h : (roster.row i).endDate = none) :
    kernelDerivedEnd roster i = (roster.next i).map (·.startDate - 1) := by
  rw [kernelDerivedEnd, h]

/-- Only the last row may have no end. -/
theorem derivedEnd_of_lt {i j : roster.Index} (h : i < j) : ∃ e, kernelDerivedEnd roster i = some e := by
  unfold kernelDerivedEnd
  split
  · exact ⟨_, rfl⟩
  · cases hnext : roster.next i with
    | none =>
      have hlast := next_eq_none.mp hnext
      have hlt := Fin.lt_def.mp h
      omega
    | some next => exact ⟨_, rfl⟩

theorem isInverted_iff {row : RosterRow} : isInverted row = true ↔ ∃ e, row.endDate = some e ∧ e < row.startDate := by
  unfold isInverted
  split
  · rename_i e he
    simp [he]
  · rename_i he
    simp [he]

/-- The window of a row that is not inverted holds its first day. -/
theorem start_le_derivedEnd {i : roster.Index} {e : Int} (hrow : isInverted (roster.row i) = false)
    (h : kernelDerivedEnd roster i = some e) : (roster.row i).startDate ≤ e := by
  unfold kernelDerivedEnd at h
  split at h
  · rename_i stop hstop
    obtain rfl := Option.some.inj h
    by_contra hlt
    have hinv := isInverted_iff.mpr ⟨_, hstop, not_le.mp hlt⟩
    rw [hrow] at hinv
    cases hinv
  · obtain ⟨next, hnext, rfl⟩ := Option.map_eq_some_iff.mp h
    obtain ⟨j, hj, rfl⟩ := next_eq_some.mp hnext
    have := row_start_lt (show i < j from Fin.lt_def.mpr (by omega))
    omega

/-! ## Overlaps -/

/-- A day of the window of a row. -/
def DayOf (roster : CompleteRoster) (i : roster.Index) (day : Int) : Prop :=
  (roster.row i).startDate ≤ day ∧ ∀ e, kernelDerivedEnd roster i = some e → day ≤ e

/-- Two rows, neither of them inverted, whose windows share a day. -/
def RowsOverlap (roster : CompleteRoster) (pair : roster.Index × roster.Index) : Prop :=
  pair.1 < pair.2 ∧ isInverted (roster.row pair.1) = false ∧ isInverted (roster.row pair.2) = false ∧
    ∃ day, DayOf roster pair.1 day ∧ DayOf roster pair.2 day

/-- What the scan asks of a pair. -/
def scanCounts (roster : CompleteRoster) (pair : roster.Index × roster.Index) : Bool :=
  match kernelDerivedEnd roster pair.1 with
  | none => false
  | some leftEnd => !(isInverted (roster.row pair.1) || isInverted (roster.row pair.2)) &&
      decide ((roster.row pair.2).startDate ≤ leftEnd)

theorem scanCounts_iff {pair : roster.Index × roster.Index} (hlt : pair.1 < pair.2) :
    scanCounts roster pair = true ↔ RowsOverlap roster pair := by
  obtain ⟨leftEnd, hend⟩ := derivedEnd_of_lt hlt
  unfold scanCounts RowsOverlap
  rw [hend]
  simp only [Bool.and_eq_true, Bool.not_eq_true', Bool.or_eq_false_iff, decide_eq_true_eq]
  constructor
  · rintro ⟨⟨hleft, hright⟩, hle⟩
    refine ⟨hlt, hleft, hright, (roster.row pair.2).startDate, ⟨row_start_le hlt.le, fun e he => ?_⟩, le_rfl,
      fun e he => start_le_derivedEnd hright he⟩
    obtain rfl := Option.some.inj (hend.symm.trans he)
    exact hle
  · rintro ⟨-, hleft, hright, day, hday, hday'⟩
    exact ⟨⟨hleft, hright⟩, hday'.1.trans (hday.2 leftEnd hend)⟩

/-- Every pair of rows that overlap, in the order of the scan. -/
def overlapping (roster : CompleteRoster) : List (roster.Index × roster.Index) :=
  (rowPairs roster).filter (scanCounts roster)

theorem mem_rowPairs {pair : roster.Index × roster.Index} : pair ∈ rowPairs roster ↔ pair.1 < pair.2 := by
  unfold rowPairs CompleteRoster.indexes
  simp only [List.mem_flatMap, List.mem_finRange, List.mem_map, List.mem_filter, true_and, decide_eq_true_eq]
  constructor
  · rintro ⟨i, j, hlt, rfl⟩
    exact hlt
  · intro hlt
    exact ⟨pair.1, pair.2, hlt, rfl⟩

theorem mem_overlapping {pair : roster.Index × roster.Index} :
    pair ∈ overlapping roster ↔ RowsOverlap roster pair := by
  rw [overlapping, List.mem_filter, mem_rowPairs]
  constructor
  · exact fun h => (scanCounts_iff h.1).mp h.2
  · exact fun h => ⟨h.1, (scanCounts_iff h.1).mpr h⟩

theorem overlapping_nodup : (overlapping roster).Nodup := by
  refine List.Nodup.filter _ (List.nodup_flatMap.mpr ⟨fun i _ => ?_, ?_⟩)
  · exact ((List.nodup_finRange _).filter _).map fun _ _ h => (Prod.mk.inj h).2
  · refine (List.nodup_finRange _).imp fun {i j} hne => ?_
    intro pair hi hj
    obtain ⟨_, -, rfl⟩ := List.mem_map.mp hi
    obtain ⟨_, -, heq⟩ := List.mem_map.mp hj
    exact hne (Prod.mk.inj heq).1.symm

/-- The marker of a pair that overlaps. -/
def pairMarker (roster : CompleteRoster) (pair : roster.Index × roster.Index) : PeriodAnomaly :=
  overlapMarker (roster.row pair.1) (roster.row pair.2) ((kernelDerivedEnd roster pair.1).getD 0)

/-- The scan once it has come across these. -/
def scanOf (roster : CompleteRoster) (hits : List (roster.Index × roster.Index)) : OverlapScan where
  anomalies := (hits.take overlapEmissionCap).map (pairMarker roster)
  emitted := min hits.length overlapEmissionCap
  overlapCount := hits.length

theorem scanPair_hit (hits : List (roster.Index × roster.Index)) {pair : roster.Index × roster.Index}
    (h : scanCounts roster pair = true) : scanPair roster (scanOf roster hits) pair = scanOf roster (hits ++ [pair]) := by
  unfold scanCounts at h
  split at h
  · cases h
  · rename_i leftEnd hend
    obtain ⟨hrows, hle⟩ := Bool.and_eq_true_iff.mp h
    have hinverted : (isInverted (roster.row pair.1) || isInverted (roster.row pair.2)) = false := by simpa using hrows
    have hon : ¬ leftEnd < (roster.row pair.2).startDate := not_lt.mpr (of_decide_eq_true hle)
    have hmarker : overlapMarker (roster.row pair.1) (roster.row pair.2) leftEnd = pairMarker roster pair := by
      rw [pairMarker, hend]
      rfl
    unfold scanPair
    rw [hend]
    dsimp only
    rw [hinverted, if_neg Bool.false_ne_true, if_neg hon]
    have hlength : (hits ++ [pair]).length = hits.length + 1 := by simp
    split
    · rename_i hcap
      -- past the ceiling, only the count moves
      have hfull : overlapEmissionCap ≤ hits.length := by
        unfold scanOf at hcap
        dsimp only at hcap
        omega
      unfold scanOf
      rw [List.take_append_of_le_length hfull, hlength]
      dsimp only
      congr 1
      omega
    · rename_i hcap
      have hroom : hits.length < overlapEmissionCap := by
        unfold scanOf at hcap
        dsimp only at hcap
        omega
      unfold scanOf
      rw [List.take_of_length_le (by omega), List.take_of_length_le (by rw [hlength]; omega), List.map_append, hlength,
        hmarker]
      dsimp only [List.map_cons, List.map_nil]
      congr 1
      omega

theorem scanPair_miss (scan : OverlapScan) {pair : roster.Index × roster.Index} (h : scanCounts roster pair = false) :
    scanPair roster scan pair = scan := by
  cases hend : kernelDerivedEnd roster pair.1 with
  | none => rw [scanPair, hend]
  | some leftEnd =>
    rw [scanCounts, hend] at h
    rw [scanPair, hend]
    dsimp only at h ⊢
    split
    · rfl
    · rename_i hinverted
      rw [Bool.not_eq_true] at hinverted
      rw [hinverted, Bool.not_false, Bool.true_and] at h
      rw [if_pos (not_le.mp (of_decide_eq_false h))]

/-- **The scan counts every pair that overlaps, and emits the first of them.** -/
theorem scan_eq : (rowPairs roster).foldl (scanPair roster) {} = scanOf roster (overlapping roster) := by
  have hscan : ∀ (pairs hits : List (roster.Index × roster.Index)), pairs.foldl (scanPair roster) (scanOf roster hits) =
      scanOf roster (hits ++ pairs.filter (scanCounts roster)) := by
    intro pairs
    induction pairs with
    | nil =>
      intro hits
      rw [List.filter_nil, List.append_nil]
      rfl
    | cons pair pairs ih =>
      intro hits
      rw [List.foldl_cons]
      by_cases hhit : scanCounts roster pair = true
      · rw [scanPair_hit hits hhit, ih, List.filter_cons_of_pos hhit, List.append_assoc, List.singleton_append]
      · rw [scanPair_miss _ (by simpa using hhit), ih, List.filter_cons_of_neg hhit]
  exact hscan (rowPairs roster) []

/-- Past the ceiling, how many there are. -/
def cappedMarkers (roster : CompleteRoster) : List PeriodAnomaly :=
  if overlapEmissionCap < (overlapping roster).length then
    [{ kind := .overlapEmissionCapped, overlapCount := (overlapping roster).length, cap := overlapEmissionCap }]
  else []

theorem overlapMarkers_eq (hcap : roster.rows.length ≤ overlapAnalysisCap) : overlapMarkers roster =
    ((overlapping roster).take overlapEmissionCap).map (pairMarker roster) ++ cappedMarkers roster := by
  rw [overlapMarkers, if_neg (not_lt.mpr hcap), scan_eq]
  rfl

/-! ## Gaps -/

/-- The gap after a row, on a calendar without a last day. -/
def gapMarker (roster : CompleteRoster) (i : roster.Index) : Option PeriodAnomaly :=
  match roster.next i, kernelDerivedEnd roster i with
  | some next, some leftEnd =>
    if (isInverted (roster.row i) || isInverted next) = false ∧ leftEnd + 1 < next.startDate then
      some { kind := .gap, fromPeriodId := (roster.row i).id, toPeriodId := next.id
             fromDate := some (leftEnd + 1), toDate := some (next.startDate - 1) }
    else none
  | _, _ => none

/-- The row does not end on the last day of the calendar with another row after it, neither of
the two inverted. -/
def EndsBeforeLastDay (roster : CompleteRoster) (i : roster.Index) : Prop :=
  ∀ j : roster.Index, j.val = i.val + 1 → isInverted (roster.row i) = false → isInverted (roster.row j) = false →
    ∀ e, (roster.row i).endDate = some e → e < dateMax

theorem endsBeforeLastDay_iff {i j : roster.Index} (hj : j.val = i.val + 1) {leftEnd : Int}
    (hend : kernelDerivedEnd roster i = some leftEnd) : EndsBeforeLastDay roster i ↔
      ((isInverted (roster.row i) || isInverted (roster.row j)) = false → leftEnd < dateMax) := by
  constructor
  · intro h hinverted
    obtain ⟨hleft, hright⟩ := Bool.or_eq_false_iff.mp hinverted
    cases hstop : (roster.row i).endDate with
    | some e =>
      obtain rfl := Option.some.inj ((derivedEnd_closed hstop).symm.trans hend)
      exact h j hj hleft hright _ hstop
    | none =>
      -- an open row ends the day before the next one starts
      rw [derivedEnd_open hstop, next_eq_some.mpr ⟨j, hj, rfl⟩] at hend
      obtain rfl := Option.some.inj hend
      have hstart := roster.dated (roster.row j) (List.get_mem _ _)
      exact (Int.sub_one_lt_iff).mpr hstart
  · intro h k hk hleft hright e he
    obtain rfl : k = j := Fin.ext (hk.trans hj.symm)
    obtain rfl := Option.some.inj ((derivedEnd_closed he).symm.trans hend)
    exact h (Bool.or_eq_false_iff.mpr ⟨hleft, hright⟩)

theorem gapAfter_eq_ok {i : roster.Index} {gap : Option PeriodAnomaly} :
    gapAfter roster i = .ok gap ↔ gap = gapMarker roster i ∧ EndsBeforeLastDay roster i := by
  cases hnext : roster.next i with
  | none =>
    have hlast := next_eq_none.mp hnext
    simp only [gapAfter, gapMarker, hnext, Except.ok.injEq]
    refine ⟨fun h => ⟨h.symm, fun j hj => ?_⟩, fun h => h.1.symm⟩
    have := j.isLt
    omega
  | some next =>
    obtain ⟨j, hj, rfl⟩ := next_eq_some.mp hnext
    obtain ⟨leftEnd, hend⟩ := derivedEnd_of_lt (show i < j from Fin.lt_def.mpr (by omega))
    rw [endsBeforeLastDay_iff hj hend]
    simp only [gapAfter, gapMarker, hnext, hend]
    cases hinverted : (isInverted (roster.row i) || isInverted (roster.row j)) with
    | true => simp [eq_comm]
    | false =>
      by_cases hlast : leftEnd < dateMax
      · rw [if_neg Bool.false_ne_true, dayAfter, if_neg (not_le.mpr hlast), bind_ok]
        split
        · rename_i hgap
          rw [if_pos ⟨rfl, hgap⟩, Except.ok.injEq]
          exact ⟨fun h => ⟨h.symm, fun _ => hlast⟩, fun h => h.1.symm⟩
        · rename_i hgap
          rw [if_neg fun h => hgap h.2, Except.ok.injEq]
          exact ⟨fun h => ⟨h.symm, fun _ => hlast⟩, fun h => h.1.symm⟩
      · rw [if_neg Bool.false_ne_true, dayAfter, if_pos (not_lt.mp hlast)]
        constructor
        · intro h
          cases h
        · exact fun h => absurd (h.2 rfl) hlast

/-- Every marker, before they are put in order. -/
def allMarkers (roster : CompleteRoster) (today : Int) : List PeriodAnomaly :=
  invertedMarkers roster ++ roster.indexes.filterMap (gapMarker roster) ++ overlapMarkers roster ++
    openMarkers roster today

/-- **What the report is, and when it comes out.** -/
theorem report_eq_ok {today : Int} {report : List PeriodAnomaly} : findPeriodAnomalies roster today = .ok report ↔
    (∀ i, EndsBeforeLastDay roster i) ∧
      report = (allMarkers roster today).insertionSort (fun a b => anomalySortKey a ≤ anomalySortKey b) := by
  have hgaps : ∀ gaps, roster.indexes.mapM (gapAfter roster) = .ok gaps ↔
      (∀ i ∈ roster.indexes, EndsBeforeLastDay roster i) ∧ gaps = roster.indexes.map (gapMarker roster) := fun gaps =>
    mapM_eq_ok_map fun _ _ => gapAfter_eq_ok
  have hfound : (roster.indexes.map (gapMarker roster)).reduceOption = roster.indexes.filterMap (gapMarker roster) := by
    rw [List.reduceOption, List.filterMap_map]
    rfl
  simp only [findPeriodAnomalies, allMarkers]
  constructor
  · intro h
    obtain ⟨gaps, hok, h⟩ := bind_eq_ok.mp h
    obtain ⟨hends, rfl⟩ := (hgaps gaps).mp hok
    rw [hfound] at h
    exact ⟨fun i => hends i (List.mem_finRange i), (Except.ok.inj h).symm⟩
  · rintro ⟨hends, rfl⟩
    refine bind_eq_ok.mpr ⟨_, (hgaps _).mpr ⟨fun i _ => hends i, rfl⟩, ?_⟩
    rw [hfound]

/-! ## The kinds of marker -/

theorem mem_allMarkers {today : Int} {a : PeriodAnomaly} : a ∈ allMarkers roster today ↔
    a ∈ invertedMarkers roster ∨ a ∈ roster.indexes.filterMap (gapMarker roster) ∨ a ∈ overlapMarkers roster ∨
      a ∈ openMarkers roster today := by
  rw [allMarkers, List.mem_append, List.mem_append, List.mem_append, or_assoc, or_assoc]

theorem mem_invertedMarkers {a : PeriodAnomaly} : a ∈ invertedMarkers roster ↔
    ∃ i, isInverted (roster.row i) = true ∧ a = { kind := .inverted, periodId := (roster.row i).id } := by
  unfold invertedMarkers CompleteRoster.indexes
  simp only [List.mem_map, List.mem_filter, List.mem_finRange, true_and]
  exact exists_congr fun i => and_congr_right fun _ => eq_comm

theorem gapMarker_eq_some {i : roster.Index} {a : PeriodAnomaly} : gapMarker roster i = some a ↔
    ∃ j : roster.Index, ∃ e, j.val = i.val + 1 ∧ kernelDerivedEnd roster i = some e ∧
      isInverted (roster.row i) = false ∧ isInverted (roster.row j) = false ∧ e + 1 < (roster.row j).startDate ∧
        a = { kind := .gap, fromPeriodId := (roster.row i).id, toPeriodId := (roster.row j).id
              fromDate := some (e + 1), toDate := some ((roster.row j).startDate - 1) } := by
  constructor
  · intro h
    unfold gapMarker at h
    split at h
    · rename_i next leftEnd hnext hend
      obtain ⟨j, hj, rfl⟩ := next_eq_some.mp hnext
      split at h
      · rename_i hgap
        obtain ⟨hleft, hright⟩ := Bool.or_eq_false_iff.mp hgap.1
        exact ⟨j, leftEnd, hj, hend, hleft, hright, hgap.2, (Option.some.inj h).symm⟩
      · cases h
    · cases h
  · rintro ⟨j, e, hj, hend, hleft, hright, hlt, rfl⟩
    rw [gapMarker, next_eq_some.mpr ⟨j, hj, rfl⟩, hend]
    exact if_pos ⟨Bool.or_eq_false_iff.mpr ⟨hleft, hright⟩, hlt⟩

theorem mem_openIndexes {i : roster.Index} : i ∈ openIndexes roster ↔ (roster.row i).endDate = none := by
  unfold openIndexes CompleteRoster.indexes
  rw [List.mem_filter, Option.isNone_iff_eq_none]
  exact and_iff_right (List.mem_finRange i)

theorem openIndexes_nodup : (openIndexes roster).Nodup := (List.nodup_finRange _).filter _

theorem mem_straddlingMarkers {anchor : roster.Index} {a : PeriodAnomaly} : a ∈ straddlingMarkers roster anchor ↔
    ∃ i e, i ≠ anchor ∧ kernelDerivedEnd roster i = some e ∧
      (roster.row i).startDate ≤ (roster.row anchor).startDate ∧ (roster.row anchor).startDate ≤ e ∧
        a = { kind := .straddling, periodId := (roster.row i).id, anchorPeriodId := (roster.row anchor).id } := by
  unfold straddlingMarkers CompleteRoster.indexes
  rw [List.mem_map]
  constructor
  · rintro ⟨i, hi, rfl⟩
    obtain ⟨hne, hin⟩ := Bool.and_eq_true_iff.mp (List.mem_filter.mp hi).2
    split at hin
    · cases hin
    · rename_i e he
      obtain ⟨hstart, hstop⟩ := of_decide_eq_true hin
      exact ⟨i, e, of_decide_eq_true hne, he, hstart, hstop, rfl⟩
  · rintro ⟨i, e, hne, he, hstart, hstop, rfl⟩
    refine ⟨i, List.mem_filter.mpr ⟨List.mem_finRange i, ?_⟩, rfl⟩
    rw [he]
    exact Bool.and_eq_true_iff.mpr ⟨decide_eq_true hne, decide_eq_true ⟨hstart, hstop⟩⟩

theorem mem_lapsedMarkers {today : Int} {anchor : roster.Index} {a : PeriodAnomaly}
    (h : a ∈ lapsedMarkers roster today anchor) : a.kind = .lapsedOpen := by
  unfold lapsedMarkers at h
  split at h
  · split at h
    · obtain rfl := List.mem_singleton.mp h
      rfl
    · cases h
  · cases h

/-! ## A clean roster -/

/-- No row is inverted, one is open, and each window starts on the day after the one before.
Only the last may have no end. -/
structure CleanRoster (roster : CompleteRoster) : Prop where
  ordered : ∀ i : roster.Index, isInverted (roster.row i) = false
  oneOpen : ∃! i : roster.Index, (roster.row i).endDate = none
  abut : ∀ i j : roster.Index, j.val = i.val + 1 →
    ∃ e, kernelDerivedEnd roster i = some e ∧ (roster.row j).startDate = e + 1

/-- The windows of a clean roster come one after the other. -/
theorem CleanRoster.end_lt (h : CleanRoster roster) {i j : roster.Index} (hlt : i < j) {e : Int}
    (he : kernelDerivedEnd roster i = some e) : e < (roster.row j).startDate := by
  have hi := Fin.lt_def.mp hlt
  have hnext : i.val + 1 < roster.rows.length := by
    have := j.isLt
    omega
  obtain ⟨e', he', hstart⟩ := h.abut i ⟨i.val + 1, hnext⟩ rfl
  obtain rfl := Option.some.inj (he.symm.trans he')
  have hle := row_start_le (show (⟨i.val + 1, hnext⟩ : roster.Index) ≤ j from Fin.le_def.mpr (by dsimp only; omega))
  omega

theorem cappedMarkers_of_nil (h : overlapping roster = []) : cappedMarkers roster = [] := by
  rw [cappedMarkers, h]
  rfl

/-- Where the open rows are reported as nothing but lapsed there is one of them. -/
theorem oneOpen_of_lapsed {today : Int} (h : ∀ a ∈ openMarkers roster today, a.kind = .lapsedOpen) :
    ∃! i : roster.Index, (roster.row i).endDate = none := by
  unfold openMarkers at h
  split at h
  · have hkind := h _ (List.mem_singleton.mpr rfl)
    cases hkind
  · rename_i anchor hlast
    have hanchor := List.mem_of_getLast? hlast
    have hone : (openIndexes roster).length ≤ 1 := by
      by_contra hmany
      rw [if_pos (not_le.mp hmany)] at h
      have hkind := h _ (List.mem_append_left _ (List.mem_append_left _ (List.mem_singleton.mpr rfl)))
      cases hkind
    refine ⟨anchor, mem_openIndexes.mp hanchor, fun i hi => ?_⟩
    obtain ⟨only, honly⟩ := List.length_eq_one_iff.mp
      (le_antisymm hone (List.length_pos_of_mem hanchor))
    rw [honly] at hanchor
    have hi' := mem_openIndexes.mpr hi
    rw [honly] at hi'
    exact (List.mem_singleton.mp hi').trans (List.mem_singleton.mp hanchor).symm

theorem CleanRoster.open_lapsed (hclean : CleanRoster roster) {today : Int} {a : PeriodAnomaly}
    (ha : a ∈ openMarkers roster today) : a.kind = .lapsedOpen := by
  obtain ⟨only, honly, hunique⟩ := hclean.oneOpen
  unfold openMarkers at ha
  split at ha
  · rename_i hnone
    have hmem := mem_openIndexes.mpr honly
    rw [List.getLast?_eq_none_iff.mp hnone] at hmem
    cases hmem
  · rename_i anchor hlast
    have hone : ¬ 1 < (openIndexes roster).length := by
      intro hmany
      have hsame : ∀ i ∈ openIndexes roster, i = only := fun i hi => hunique i (mem_openIndexes.mp hi)
      have hle := (List.nodup_iff_count_le_one.mp openIndexes_nodup) only
      rw [List.count_eq_length.mpr fun i hi => (hsame i hi).symm] at hle
      omega
    rw [if_neg hone, List.nil_append] at ha
    rcases List.mem_append.mp ha with ha | ha
    · obtain ⟨i, e, hne, he, hstart, hstop, -⟩ := mem_straddlingMarkers.mp ha
      rcases lt_or_gt_of_ne hne with hlt | hgt
      · have := hclean.end_lt hlt he
        omega
      · have := row_start_lt hgt
        omega
    · exact mem_lapsedMarkers ha

/-- **Nothing structural is reported iff the roster is clean.** -/
theorem clean_iff (hcap : roster.rows.length ≤ overlapAnalysisCap) (today : Int) :
    (∀ a ∈ allMarkers roster today, a.kind = .lapsedOpen) ↔ CleanRoster roster := by
  simp only [mem_allMarkers, overlapMarkers_eq hcap]
  constructor
  · intro hall
    have hordered : ∀ i : roster.Index, isInverted (roster.row i) = false := by
      intro i
      by_contra hinverted
      have hkind := hall _ (.inl (mem_invertedMarkers.mpr ⟨i, by simpa using hinverted, rfl⟩))
      cases hkind
    have hopen : ∀ a ∈ openMarkers roster today, a.kind = .lapsedOpen :=
      fun a ha => hall a (.inr (.inr (.inr ha)))
    have hdisjoint : overlapping roster = [] := by
      cases hpairs : overlapping roster with
      | nil => rfl
      | cons pair pairs =>
        have hmarker : pairMarker roster pair ∈
            ((overlapping roster).take overlapEmissionCap).map (pairMarker roster) := by
          rw [hpairs]
          exact List.mem_cons_self
        have hkind := hall _ (.inr (.inr (.inl (List.mem_append_left _ hmarker))))
        cases hkind
    refine ⟨hordered, oneOpen_of_lapsed hopen, ?_⟩
    intro i j hj
    have hlt : i < j := Fin.lt_def.mpr (by omega)
    obtain ⟨e, he⟩ := derivedEnd_of_lt hlt
    refine ⟨e, he, ?_⟩
    have hgap : ¬ e + 1 < (roster.row j).startDate := by
      intro hgap
      have hmarker := gapMarker_eq_some.mpr ⟨j, e, hj, he, hordered i, hordered j, hgap, rfl⟩
      have hkind := hall _ (.inr (.inl (List.mem_filterMap.mpr ⟨i, List.mem_finRange i, hmarker⟩)))
      cases hkind
    have hoverlap : ¬ (roster.row j).startDate ≤ e := by
      intro hle
      have hcounts : scanCounts roster (i, j) = true := by
        rw [scanCounts, he]
        dsimp only
        rw [hordered i, hordered j]
        exact decide_eq_true hle
      have hmem := mem_overlapping.mpr ((scanCounts_iff hlt).mp hcounts)
      rw [hdisjoint] at hmem
      cases hmem
    omega
  · intro hclean a ha
    have hnone : overlapping roster = [] := by
      refine List.eq_nil_iff_forall_not_mem.mpr fun pair hpair => ?_
      obtain ⟨hlt, -, -, day, hday, hday'⟩ := mem_overlapping.mp hpair
      obtain ⟨e, he⟩ := derivedEnd_of_lt hlt
      have hend := hclean.end_lt hlt he
      have hin := hday.2 e he
      have hfrom := hday'.1
      omega
    rcases ha with ha | ha | ha | ha
    · obtain ⟨i, hinverted, -⟩ := mem_invertedMarkers.mp ha
      rw [hclean.ordered i] at hinverted
      cases hinverted
    · obtain ⟨i, -, hgap⟩ := List.mem_filterMap.mp ha
      obtain ⟨j, e, hj, he, -, -, hlt, -⟩ := gapMarker_eq_some.mp hgap
      obtain ⟨e', he', hstart⟩ := hclean.abut i j hj
      obtain rfl := Option.some.inj (he.symm.trans he')
      omega
    · rw [hnone, cappedMarkers_of_nil hnone] at ha
      cases ha
    · exact hclean.open_lapsed ha

/-! ## No two markers share a key -/

/-- The key of the one is not the key of the other. -/
def KeysDiffer (a b : PeriodAnomaly) : Prop := anomalySortKey a ≠ anomalySortKey b

theorem order_inj {k k' : AnomalyKind} (h : k.order = k'.order) : k = k' := by
  cases k <;> cases k' <;> first | rfl | cases h

/-- A key tells the kind, and which ids. -/
theorem key_eq {a b : PeriodAnomaly} (h : anomalySortKey a = anomalySortKey b) : a.kind = b.kind ∧ a.ids.Perm b.ids := by
  unfold anomalySortKey at h
  obtain ⟨hkind, h⟩ := Prod.mk.inj (toLex.injective h)
  obtain ⟨-, h⟩ := Prod.mk.inj (toLex.injective h)
  obtain ⟨hids, -⟩ := Prod.mk.inj (toLex.injective h)
  refine ⟨order_inj hkind, ?_⟩
  exact ((List.perm_insertionSort _ a.ids).symm.trans (List.Perm.of_eq hids)).trans (List.perm_insertionSort _ b.ids)

theorem keysDiffer_of_kind {a b : PeriodAnomaly} (h : a.kind ≠ b.kind) : KeysDiffer a b := fun heq => h (key_eq heq).1

theorem perm_pair {α : Type} {a b c d : α} (h : [a, b].Perm [c, d]) : a = c ∧ b = d ∨ a = d ∧ b = c := by
  have hmem : a ∈ [c, d] := h.subset List.mem_cons_self
  rcases List.mem_cons.mp hmem with rfl | hmem
  · exact .inl ⟨rfl, List.singleton_perm_singleton.mp ((List.perm_cons a).mp h)⟩
  · obtain rfl := List.mem_singleton.mp hmem
    exact .inr ⟨rfl, List.singleton_perm_singleton.mp ((List.perm_cons a).mp (h.trans (List.Perm.swap a c [])))⟩

/-- Markers of rows known by their ids are of the same two rows. -/
theorem rows_eq_of_perm {i j k l : roster.Index}
    (h : [(roster.row i).id, (roster.row j).id].Perm [(roster.row k).id, (roster.row l).id]) :
    i = k ∧ j = l ∨ i = l ∧ j = k := by
  rcases perm_pair h with ⟨h1, h2⟩ | ⟨h1, h2⟩
  · exact .inl ⟨row_id_inj h1, row_id_inj h2⟩
  · exact .inr ⟨row_id_inj h1, row_id_inj h2⟩

theorem invertedMarkers_differ : (invertedMarkers roster).Pairwise KeysDiffer := by
  refine List.pairwise_map.mpr (((List.nodup_finRange _).filter _).imp fun {i j} hne heq => hne ?_)
  have hids : [(roster.row i).id].Perm [(roster.row j).id] := (key_eq heq).2
  exact row_id_inj (List.singleton_perm_singleton.mp hids)

theorem gapMarkers_differ : (roster.indexes.filterMap (gapMarker roster)).Pairwise KeysDiffer := by
  refine List.pairwise_filterMap.mpr ((List.nodup_finRange _).imp fun {i j} hne a ha b hb heq => hne ?_)
  obtain ⟨k, _, hk, -, -, -, -, rfl⟩ := gapMarker_eq_some.mp ha
  obtain ⟨l, _, hl, -, -, -, -, rfl⟩ := gapMarker_eq_some.mp hb
  have hids : [(roster.row i).id, (roster.row k).id].Perm [(roster.row j).id, (roster.row l).id] := (key_eq heq).2
  rcases rows_eq_of_perm hids with ⟨h, -⟩ | ⟨h, h'⟩
  · exact h
  · -- a row and its next one are not the other way round
    have := congrArg Fin.val h
    have := congrArg Fin.val h'
    omega

theorem pairMarkers_differ (n : Nat) : (((overlapping roster).take n).map (pairMarker roster)).Pairwise KeysDiffer := by
  have hnodup : ((overlapping roster).take n).Nodup := overlapping_nodup.sublist (List.take_sublist _ _)
  refine List.pairwise_map.mpr (hnodup.imp_of_mem fun {p q} hp hq hne heq => hne ?_)
  have hlt := (mem_overlapping.mp (List.mem_of_mem_take hp)).1
  have hlt' := (mem_overlapping.mp (List.mem_of_mem_take hq)).1
  have hids : [(roster.row p.1).id, (roster.row p.2).id].Perm [(roster.row q.1).id, (roster.row q.2).id] :=
    (key_eq heq).2
  rcases rows_eq_of_perm hids with ⟨h1, h2⟩ | ⟨h1, h2⟩
  · exact Prod.ext h1 h2
  · rw [h1, h2] at hlt
    exact absurd hlt (lt_asymm hlt')

theorem straddlingMarkers_differ (anchor : roster.Index) : (straddlingMarkers roster anchor).Pairwise KeysDiffer := by
  refine List.pairwise_map.mpr (((List.nodup_finRange _).filter _).imp_of_mem fun {i j} hi _ hne heq => hne ?_)
  have hids : [(roster.row i).id, (roster.row anchor).id].Perm [(roster.row j).id, (roster.row anchor).id] :=
    (key_eq heq).2
  rcases rows_eq_of_perm hids with ⟨h, -⟩ | ⟨h, -⟩
  · exact h
  · have hkept := (Bool.and_eq_true_iff.mp (List.mem_filter.mp hi).2).1
    exact absurd h (of_decide_eq_true hkept)

/-- Markers of one rule are of its kind. -/
theorem kind_inverted {a : PeriodAnomaly} (h : a ∈ invertedMarkers roster) : a.kind = .inverted := by
  obtain ⟨_, -, rfl⟩ := mem_invertedMarkers.mp h
  rfl

theorem kind_gap {a : PeriodAnomaly} (h : a ∈ roster.indexes.filterMap (gapMarker roster)) : a.kind = .gap := by
  obtain ⟨_, -, hgap⟩ := List.mem_filterMap.mp h
  obtain ⟨_, _, -, -, -, -, -, rfl⟩ := gapMarker_eq_some.mp hgap
  rfl

theorem kind_pair {a : PeriodAnomaly} {pairs : List (roster.Index × roster.Index)}
    (h : a ∈ pairs.map (pairMarker roster)) : a.kind = .overlap := by
  obtain ⟨_, -, rfl⟩ := List.mem_map.mp h
  rfl

theorem kind_capped {a : PeriodAnomaly} (h : a ∈ cappedMarkers roster) : a.kind = .overlapEmissionCapped := by
  unfold cappedMarkers at h
  split at h
  · obtain rfl := List.mem_singleton.mp h
    rfl
  · cases h

theorem kind_straddling {anchor : roster.Index} {a : PeriodAnomaly} (h : a ∈ straddlingMarkers roster anchor) :
    a.kind = .straddling := by
  obtain ⟨_, _, -, -, -, -, rfl⟩ := mem_straddlingMarkers.mp h
  rfl

/-- Markers of different kinds may follow each other. -/
theorem append_differ {xs ys : List PeriodAnomaly} (hx : xs.Pairwise KeysDiffer) (hy : ys.Pairwise KeysDiffer)
    (hkinds : ∀ a ∈ xs, ∀ b ∈ ys, a.kind ≠ b.kind) : (xs ++ ys).Pairwise KeysDiffer :=
  List.pairwise_append.mpr ⟨hx, hy, fun a ha b hb => keysDiffer_of_kind (hkinds a ha b hb)⟩

/-- The kinds that tell of the open rows. -/
def OpenKind (k : AnomalyKind) : Prop := k = .noOpen ∨ k = .duplicateOpen ∨ k = .straddling ∨ k = .lapsedOpen

variable (roster) in
theorem openMarkers_differ (today : Int) :
    (openMarkers roster today).Pairwise KeysDiffer ∧ ∀ a ∈ openMarkers roster today, OpenKind a.kind := by
  unfold openMarkers
  split
  · refine ⟨List.pairwise_singleton _ _, fun a ha => ?_⟩
    obtain rfl := List.mem_singleton.mp ha
    exact .inl rfl
  · rename_i anchor _
    have hduplicate : ∀ a ∈ (if 1 < (openIndexes roster).length then
        [({ kind := .duplicateOpen
            periodIds := some ((openIndexes roster).map (fun i => (roster.row i).id)) } : PeriodAnomaly)]
        else []), a.kind = .duplicateOpen := by
      intro a ha
      split at ha
      · obtain rfl := List.mem_singleton.mp ha
        rfl
      · cases ha
    constructor
    · refine append_differ (append_differ ?_ (straddlingMarkers_differ anchor) ?_) ?_ ?_
      · split
        · exact List.pairwise_singleton _ _
        · exact List.Pairwise.nil
      · intro a ha b hb
        rw [hduplicate a ha, kind_straddling hb]
        decide
      · unfold lapsedMarkers
        split
        · split
          · exact List.pairwise_singleton _ _
          · exact List.Pairwise.nil
        · exact List.Pairwise.nil
      · intro a ha b hb
        rw [mem_lapsedMarkers hb]
        rcases List.mem_append.mp ha with ha | ha
        · rw [hduplicate a ha]
          decide
        · rw [kind_straddling ha]
          decide
    · intro a ha
      rcases List.mem_append.mp ha with ha | ha
      · rcases List.mem_append.mp ha with ha | ha
        · exact .inr (.inl (hduplicate a ha))
        · exact .inr (.inr (.inl (kind_straddling ha)))
      · exact .inr (.inr (.inr (mem_lapsedMarkers ha)))

/-- **No two markers share a sort key.** -/
theorem allMarkers_differ (hcap : roster.rows.length ≤ overlapAnalysisCap) (today : Int) :
    (allMarkers roster today).Pairwise KeysDiffer := by
  obtain ⟨hopen, hopenKind⟩ := openMarkers_differ roster today
  have hcapped : (cappedMarkers roster).Pairwise KeysDiffer := by
    unfold cappedMarkers
    split
    · exact List.pairwise_singleton _ _
    · exact List.Pairwise.nil
  have hoverlap : (overlapMarkers roster).Pairwise KeysDiffer ∧
      ∀ a ∈ overlapMarkers roster, a.kind = .overlap ∨ a.kind = .overlapEmissionCapped := by
    rw [overlapMarkers_eq hcap]
    refine ⟨append_differ (pairMarkers_differ _) hcapped fun a ha b hb => ?_, fun a ha => ?_⟩
    · rw [kind_pair ha, kind_capped hb]
      decide
    · rcases List.mem_append.mp ha with ha | ha
      · exact .inl (kind_pair ha)
      · exact .inr (kind_capped ha)
  refine append_differ (append_differ (append_differ invertedMarkers_differ gapMarkers_differ ?_) hoverlap.1 ?_) hopen ?_
  · intro a ha b hb
    rw [kind_inverted ha, kind_gap hb]
    decide
  · intro a ha b hb
    have hkind : a.kind = .inverted ∨ a.kind = .gap := (List.mem_append.mp ha).imp kind_inverted kind_gap
    rcases hkind with ha | ha <;> rcases hoverlap.2 b hb with hb | hb <;> rw [ha, hb] <;> decide
  · intro a ha b hb heq
    have hkind : a.kind = .inverted ∨ a.kind = .gap ∨ a.kind = .overlap ∨ a.kind = .overlapEmissionCapped := by
      rcases List.mem_append.mp ha with ha | ha
      · rcases List.mem_append.mp ha with ha | ha
        · exact .inl (kind_inverted ha)
        · exact .inr (.inl (kind_gap ha))
      · exact .inr (.inr (hoverlap.2 a ha))
    have hkind' := hopenKind b hb
    unfold OpenKind at hkind'
    rw [← heq] at hkind'
    rcases hkind with h | h | h | h <;> rw [h] at hkind' <;> simp at hkind'

/-! ## The end of a row -/

/-- The row as the table has it. -/
def CompleteRoster.period (roster : CompleteRoster) (i : roster.Index) : BillingPeriod where
  orgId := roster.orgId
  startDate := (roster.row i).startDate
  endDate := (roster.row i).endDate

/-- Nothing is missing from the roster. -/
def CompleteRoster.CompleteFor (roster : CompleteRoster) (db : Db) : Prop :=
  roster.rows = loadCompleteRoster db roster.orgId

theorem mem_row_iff {db : Db} (h : roster.CompleteFor db) (s : Int) :
    (∃ id p, PeriodRow db roster.orgId id p ∧ p.startDate = s) ↔ ∃ i : roster.Index, (roster.row i).startDate = s := by
  have hmem : ∀ row, row ∈ roster.rows ↔ ∃ id p, PeriodRow db roster.orgId id p ∧
      row = { id := id, startDate := p.startDate, endDate := p.endDate } := by
    intro row
    rw [show roster.rows = loadCompleteRoster db roster.orgId from h, loadCompleteRoster, List.mem_insertionSort,
      List.mem_map]
    constructor
    · rintro ⟨⟨id, p⟩, hp, rfl⟩
      exact ⟨id, p, mem_periodsOf.mp hp, rfl⟩
    · rintro ⟨id, p, hp, rfl⟩
      exact ⟨(id, p), mem_periodsOf.mpr hp, rfl⟩
  constructor
  · rintro ⟨id, p, hp, rfl⟩
    obtain ⟨i, hi⟩ := List.mem_iff_get.mp ((hmem _).mpr ⟨id, p, hp, rfl⟩)
    exact ⟨i, congrArg RosterRow.startDate hi⟩
  · rintro ⟨i, rfl⟩
    obtain ⟨id, p, hp, hrow⟩ := (hmem _).mp (List.get_mem roster.rows i)
    exact ⟨id, p, hp, (congrArg RosterRow.startDate hrow).symm⟩

/-- **The end derived in memory is that of the query**, on every row of a complete roster. -/
theorem kernelDerivedEnd_eq {db : Db} (h : roster.CompleteFor db) (i : roster.Index) :
    kernelDerivedEnd roster i = periodEffectiveEnd db roster.orgId (roster.period i) := by
  unfold periodEffectiveEnd CompleteRoster.period
  dsimp only
  cases hend : (roster.row i).endDate with
  | some e => exact derivedEnd_closed hend
  | none =>
    rw [derivedEnd_open hend]
    dsimp only
    cases hnext : roster.next i with
    | none =>
      have hlast := next_eq_none.mp hnext
      have hquery : nextPeriodStart db roster.orgId (roster.row i).startDate = none := by
        refine nextPeriodStart_eq_none.mpr fun id p hp => ?_
        obtain ⟨j, hj⟩ := (mem_row_iff h p.startDate).mp ⟨id, p, hp, rfl⟩
        rw [← hj]
        exact row_start_le (Fin.le_def.mpr (by have := j.isLt; omega))
      rw [hquery]
      rfl
    | some next =>
      obtain ⟨j, hj, rfl⟩ := next_eq_some.mp hnext
      have hquery : nextPeriodStart db roster.orgId (roster.row i).startDate = some (roster.row j).startDate := by
        refine nextPeriodStart_eq_some.mpr ⟨row_start_lt (Fin.lt_def.mpr (by omega)),
          (mem_row_iff h _).mpr ⟨j, rfl⟩, fun id p hp hlt => ?_⟩
        obtain ⟨k, hk⟩ := (mem_row_iff h p.startDate).mp ⟨id, p, hp, rfl⟩
        rw [← hk] at hlt ⊢
        refine row_start_le (Fin.le_def.mpr ?_)
        by_contra hbefore
        have := row_start_le (show k ≤ i from Fin.le_def.mpr (by omega))
        omega
      rw [hquery]
      rfl

/-! ## The report -/

/-- What it is for a report to be sound and complete. -/
structure ExactReport (roster : CompleteRoster) (report : List PeriodAnomaly) : Prop where
  clean : (∀ a ∈ report, a.kind = .lapsedOpen) ↔ CleanRoster roster
  /-- Each pair that overlaps once, up to the ceiling; and past it how many there are. -/
  overlaps : ∃ pairs : List (roster.Index × roster.Index), pairs.Nodup ∧ (∀ pair, pair ∈ pairs ↔ RowsOverlap roster pair) ∧
    (report.filter (fun a => decide (a.kind = .overlap))).Perm
      ((pairs.take overlapEmissionCap).map (pairMarker roster)) ∧
    report.filter (fun a => decide (a.kind = .overlapEmissionCapped)) =
      if overlapEmissionCap < pairs.length then
        [{ kind := .overlapEmissionCapped, overlapCount := pairs.length, cap := overlapEmissionCap }]
      else []
  ends : ∀ db, roster.CompleteFor db → ∀ i,
    kernelDerivedEnd roster i = periodEffectiveEnd db roster.orgId (roster.period i)
  keys : (report.map anomalySortKey).Nodup

/-- The markers of one kind are those of its rule. -/
theorem filter_kind {xs ys zs : List PeriodAnomaly} {k : AnomalyKind} (hx : ∀ a ∈ xs, a.kind ≠ k)
    (hy : ∀ a ∈ ys, a.kind = k) (hz : ∀ a ∈ zs, a.kind ≠ k) :
    (xs ++ ys ++ zs).filter (fun a => decide (a.kind = k)) = ys := by
  rw [List.filter_append, List.filter_append, List.filter_eq_nil_iff.mpr (by simpa using hx),
    List.filter_eq_self.mpr (by simpa using hy), List.filter_eq_nil_iff.mpr (by simpa using hz), List.nil_append,
    List.append_nil]

theorem kind_of_mem_front {a : PeriodAnomaly}
    (h : a ∈ invertedMarkers roster ++ roster.indexes.filterMap (gapMarker roster)) :
    a.kind = .inverted ∨ a.kind = .gap :=
  (List.mem_append.mp h).imp kind_inverted kind_gap

theorem openKind_ne {a : PeriodAnomaly} (h : OpenKind a.kind) : a.kind ≠ .overlap ∧ a.kind ≠ .overlapEmissionCapped := by
  rcases h with h | h | h | h <;> rw [h] <;> decide

theorem exactReport (hcap : roster.rows.length ≤ overlapAnalysisCap) (today : Int) {report : List PeriodAnomaly}
    (hreport : report.Perm (allMarkers roster today)) : ExactReport roster report where
  clean := by
    rw [← clean_iff hcap today]
    exact forall_congr' fun a => imp_congr_left hreport.mem_iff
  overlaps := by
    have hopenKind := (openMarkers_differ roster today).2
    rw [allMarkers, overlapMarkers_eq hcap] at hreport
    refine ⟨overlapping roster, overlapping_nodup, fun _ => mem_overlapping, ?_, ?_⟩
    · refine (hreport.filter _).trans (List.Perm.of_eq ?_)
      rw [← List.append_assoc, List.append_assoc]
      refine filter_kind (fun a ha => ?_) (fun a ha => kind_pair ha) fun a ha => ?_
      · rcases kind_of_mem_front ha with h | h <;> rw [h] <;> decide
      · rcases List.mem_append.mp ha with ha | ha
        · rw [kind_capped ha]
          decide
        · exact (openKind_ne (hopenKind a ha)).1
    · have hcapped : (report.filter (fun a => decide (a.kind = .overlapEmissionCapped))).Perm (cappedMarkers roster) := by
        refine (hreport.filter _).trans (List.Perm.of_eq ?_)
        rw [← List.append_assoc]
        refine filter_kind (fun a ha => ?_) (fun a ha => kind_capped ha) fun a ha => (openKind_ne (hopenKind a ha)).2
        rcases List.mem_append.mp ha with ha | ha
        · rcases kind_of_mem_front ha with h | h <;> rw [h] <;> decide
        · rw [kind_pair ha]
          decide
      unfold cappedMarkers at hcapped
      by_cases hover : overlapEmissionCap < (overlapping roster).length
      · rw [if_pos hover] at hcapped ⊢
        exact List.perm_singleton.mp hcapped
      · rw [if_neg hover] at hcapped ⊢
        exact List.perm_nil.mp hcapped
  ends _ hcomplete i := kernelDerivedEnd_eq hcomplete i
  keys := by
    have hdiffer : (allMarkers roster today).Pairwise KeysDiffer := allMarkers_differ hcap today
    exact (hreport.map _).nodup_iff.mpr (List.pairwise_map.mpr hdiffer)

/-- **The report comes out sound and complete iff** no row ends on the last day of the calendar
with another after it, neither of the two inverted. -/
theorem anomaly_report_exact_iff (roster : CompleteRoster) (today : Int)
    (hcap : roster.rows.length ≤ overlapAnalysisCap) :
    (∃ report, findPeriodAnomalies roster today = .ok report ∧ ExactReport roster report) ↔
      ∀ i, EndsBeforeLastDay roster i := by
  constructor
  · rintro ⟨report, hok, -⟩
    exact (report_eq_ok.mp hok).1
  · intro hends
    exact ⟨_, report_eq_ok.mpr ⟨hends, rfl⟩, exactReport hcap today (List.perm_insertionSort _ _)⟩

/-- January, closed, and February, open: in order. -/
def twoMonths : CompleteRoster where
  orgId := 1
  rows := [⟨1, 739252, some 739282⟩, ⟨2, 739283, none⟩]
  dated := by decide
  ascending := by decide
  idsUnique := by decide

theorem anomaly_report_exact_two_months :
    ∃ report, findPeriodAnomalies twoMonths 739300 = .ok report ∧ ExactReport twoMonths report :=
  (anomaly_report_exact_iff twoMonths 739300 (by decide)).mpr (by
    intro i j _ _ _ e he
    have hclosed : ∀ i : twoMonths.Index, ∀ e, (twoMonths.row i).endDate = some e → e = 739282 := by decide
    rw [hclosed i e he]
    decide)

/-- The first row runs to the end of the calendar, and the second one overlaps it. -/
def endlessMonth : CompleteRoster where
  orgId := 1
  rows := [⟨1, 739252, some 3652059⟩, ⟨2, 739283, none⟩]
  dated := by decide
  ascending := by decide
  idsUnique := by decide

/-- The gap rule asks for the day after the last, and there is no report. -/
theorem no_report_of_endless_month : ¬ ∀ roster today, roster.rows.length ≤ overlapAnalysisCap →
    ∃ report, findPeriodAnomalies roster today = .ok report ∧ ExactReport roster report := by
  intro h
  obtain ⟨report, hok, -⟩ := h endlessMonth 739300 (by decide)
  have hover : findPeriodAnomalies endlessMonth 739300 = .error .overflow := by decide +kernel
  rw [hover] at hok
  cases hok

end BetterDecision
