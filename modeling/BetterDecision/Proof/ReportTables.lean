import BetterDecision.Model.ReportSeries

/-!
# The report table, tuple by tuple

The table is a map filled from the rows of all responses (`mergedRows`). What it has under a
key comes from the rows with that key, so it is right exactly when no two tuples of labels
have one key (`KeysApart`).
-/

namespace BetterDecision

open InOrder

variable {ν : Type} [AddCommMonoid ν] {J : JsNumbers ν} {dimensions : List Dimension}

/-- A series' response; no two of its rows have the same labels. -/
structure SeriesResponse (J : JsNumbers ν) (dimensions : List Dimension) where
  rows : Option (List (QueryRow ν))
  distinct : ((rows.getD []).map (readLabels J dimensions)).Nodup

def responseRows (response : SeriesResponse J dimensions) : List (QueryRow ν) := response.rows.getD []

/-- The table of these responses. -/
def tableOf (series : List (SeriesResponse J dimensions)) : List (FilledRow ν) :=
  mergeSeriesRowsForTable J (series.map (·.rows)) dimensions

/-- Labels some response has a row of. -/
def Occurs (series : List (SeriesResponse J dimensions)) (labels : List JsString) : Prop :=
  ∃ response ∈ series, ∃ row ∈ responseRows response, readLabels J dimensions row = labels

/-- The value a response has for these labels, 0 if it has none. -/
def ownValue (response : SeriesResponse J dimensions) (labels : List JsString) : ν :=
  ((responseRows response).find? (fun row => readLabels J dimensions row = labels)).elim 0 fun row =>
    readNumber J row.value

/-- One row for every tuple of labels, each series' own value in it, and the columns add up. -/
structure TableRight (series : List (SeriesResponse J dimensions)) (out : List (FilledRow ν)) : Prop where
  distinct : (out.map (·.labels)).Nodup
  occurs : ∀ labels, labels ∈ out.map (·.labels) ↔ Occurs series labels
  values : ∀ row ∈ out, row.values = series.map fun response => ownValue response row.labels
  totals : ∀ (i : Nat) response, series[i]? = some response →
    (out.map fun row => row.values.getD i 0).sum = ((responseRows response).map fun row => readNumber J row.value).sum

/-- No two tuples of labels that occur are one text when they are joined. -/
def KeysApart (series : List (SeriesResponse J dimensions)) : Prop :=
  ∀ labels labels', Occurs series labels → Occurs series labels' → joinLabels labels = joinLabels labels' → labels = labels'

/-! ## The rows of all responses -/

theorem filter_rows_from {α : Type} (responses : List (List α)) (start i : Nat) :
    ((responses.zipIdx start).flatMap fun p => p.1.map (p.2, ·)).filter (fun e => e.1 = start + i) =
      (responses.getD i []).map (start + i, ·) := by
  induction responses generalizing start i with
  | nil => rfl
  | cons rows responses ih =>
    rw [List.zipIdx_cons, List.flatMap_cons, List.filter_append]
    cases i with
    | zero =>
      have hfirst : (rows.map ((start, ·))).filter (fun e => e.1 = start + 0) = rows.map (start, ·) :=
        List.filter_eq_self.mpr fun e he => by
          obtain ⟨row, -, rfl⟩ := List.mem_map.mp he
          simp
      have hrest : ((responses.zipIdx (start + 1)).flatMap fun p => p.1.map (p.2, ·)).filter
          (fun e => e.1 = start + 0) = [] := by
        refine List.filter_eq_nil_iff.mpr fun e he => ?_
        obtain ⟨p, hp, he⟩ := List.mem_flatMap.mp he
        obtain ⟨row, -, rfl⟩ := List.mem_map.mp he
        have := (List.mem_zipIdx hp).1
        simp
        omega
      rw [hfirst, hrest, List.append_nil]
      rfl
    | succ i =>
      have hfirst : (rows.map ((start, ·))).filter (fun e => e.1 = start + (i + 1)) = [] :=
        List.filter_eq_nil_iff.mpr fun e he => by
          obtain ⟨row, -, rfl⟩ := List.mem_map.mp he
          simp
      have hshift : start + (i + 1) = start + 1 + i := by omega
      rw [hfirst, List.nil_append, hshift, ih (start + 1) i, List.getD_cons_succ]

variable (series : List (SeriesResponse J dimensions))

omit [AddCommMonoid ν] in
theorem seriesRows_eq : seriesRows (series.map (·.rows)) =
    (series.map responseRows).zipIdx.flatMap fun p => p.1.map (p.2, ·) := by
  rw [seriesRows, List.zipIdx_map, List.zipIdx_map, List.flatMap_map, List.flatMap_map]
  rfl

omit [AddCommMonoid ν] in
/-- The rows of one series. -/
theorem filter_seriesRows (i : Nat) : (seriesRows (series.map (·.rows))).filter (fun e => e.1 = i) =
    ((series.map responseRows).getD i []).map (i, ·) := by
  have hrows := filter_rows_from (series.map responseRows) 0 i
  rw [Nat.zero_add] at hrows
  rw [seriesRows_eq]
  exact hrows

variable {series}

omit [AddCommMonoid ν] in
theorem occurs_iff {labels : List JsString} :
    Occurs series labels ↔ ∃ e ∈ seriesRows (series.map (·.rows)), readLabels J dimensions e.2 = labels := by
  rw [seriesRows_eq]
  constructor
  · rintro ⟨response, hresponse, row, hrow, rfl⟩
    obtain ⟨i, hi, heq⟩ := List.getElem_of_mem hresponse
    refine ⟨(i, row), List.mem_flatMap.mpr ⟨(responseRows response, i), ?_, List.mem_map.mpr ⟨row, hrow, rfl⟩⟩, rfl⟩
    rw [List.mem_zipIdx_iff_getElem?, List.getElem?_map, List.getElem?_eq_getElem hi, heq]
    rfl
  · rintro ⟨e, he, rfl⟩
    obtain ⟨⟨rows, i⟩, hp, he⟩ := List.mem_flatMap.mp he
    obtain ⟨row, hrow, rfl⟩ := List.mem_map.mp he
    have hrows := List.mem_of_getElem? (List.mem_zipIdx_iff_getElem?.mp hp)
    obtain ⟨response, hresponse, rfl⟩ := List.mem_map.mp hrows
    exact ⟨response, hresponse, row, hrow, rfl⟩

/-! ## What an entry is made of -/

/-- A row of the table that is there takes the last value of each series. -/
theorem foldl_setSeries (es : List (Nat × QueryRow ν)) (row : TableRow ν) :
    es.foldl (fun o e => some (setSeries e.1 (readLabels J dimensions e.2) (readNumber J e.2.value) o)) (some row) =
      some ⟨row.labels, fun i => (((es.filter (fun e => e.1 = i)).getLast?).map fun e => readNumber J e.2.value).or
        (row.series i)⟩ := by
  induction es using List.reverseRecOn with
  | nil => rfl
  | append_singleton es e ih =>
    rw [List.foldl_append, ih, List.foldl_cons, List.foldl_nil]
    refine congrArg some (congrArg (TableRow.mk row.labels) (funext fun i => ?_))
    simp only [Option.getD_some]
    rw [List.filter_append]
    by_cases hi : e.1 = i
    · subst hi
      rw [if_pos rfl, List.filter_cons_of_pos (by simp), List.filter_nil, List.getLast?_concat]
      rfl
    · rw [if_neg (Ne.symm hi), List.filter_cons_of_neg (by simpa using hi), List.filter_nil, List.append_nil]

/-- An entry has the labels of the first row with its key, and of each series the value of
the last one. -/
theorem mergedRows_entry {key : JsString} {row : TableRow ν}
    (h : (key, row) ∈ mergedRows J (series.map (·.rows)) dimensions) :
    (Occurs series row.labels ∧ joinLabels row.labels = key) ∧ ∀ i, row.series i =
      (((seriesRows (series.map (·.rows))).filter (fun e => joinLabels (readLabels J dimensions e.2) = key)).filter
        (fun e => e.1 = i)).getLast?.map fun e => readNumber J e.2.value := by
  have hlookup := lookup_eq_some_of_mem keyed_fill h
  rw [lookup_fill] at hlookup
  rcases hrows : (seriesRows (series.map (·.rows))).filter
    (fun e => joinLabels (readLabels J dimensions e.2) = key) with _ | ⟨first, rest⟩
  · rw [hrows] at hlookup
    cases hlookup
  have hfirst : first ∈ (seriesRows (series.map (·.rows))).filter
      (fun e => joinLabels (readLabels J dimensions e.2) = key) := hrows ▸ List.mem_cons_self
  obtain ⟨hmem, hkey⟩ := List.mem_filter.mp hfirst
  rw [hrows, List.foldl_cons, foldl_setSeries] at hlookup
  obtain rfl := Option.some.inj hlookup
  refine ⟨⟨occurs_iff.mpr ⟨first, hmem, rfl⟩, of_decide_eq_true hkey⟩, fun i => ?_⟩
  rw [hrows]
  simp only [setSeries, Option.getD_none]
  by_cases hi : first.1 = i
  · rw [if_pos hi.symm, List.filter_cons_of_pos (by simpa using hi), List.getLast?_cons]
    have hlast : ∀ o : Option (Nat × QueryRow ν), (o.map fun e => readNumber J e.2.value).or
        (some (readNumber J first.2.value)) = some (readNumber J (o.getD first).2.value) := fun o => by cases o <;> rfl
    exact hlast _
  · rw [if_neg (Ne.symm hi), List.filter_cons_of_neg (by simpa using hi), Option.or_none]

theorem mem_mergedRows_of_occurs {labels : List JsString} (h : Occurs series labels) :
    ∃ row, (joinLabels labels, row) ∈ mergedRows J (series.map (·.rows)) dimensions := by
  obtain ⟨e, he, rfl⟩ := occurs_iff.mp h
  have hkey : joinLabels (readLabels J dimensions e.2) ∈
      (mergedRows J (series.map (·.rows)) dimensions).map Prod.fst := by
    rw [mergedRows, keys_fill, mem_firstKeys]
    exact ⟨e, he, rfl⟩
  obtain ⟨⟨key, row⟩, hmem, rfl⟩ := List.mem_map.mp hkey
  exact ⟨row, hmem⟩

omit [AddCommMonoid ν] in
/-- Of its labels a response has one row at most. -/
theorem filter_labels (response : SeriesResponse J dimensions) (labels : List JsString) :
    (responseRows response).filter (fun r => readLabels J dimensions r = labels) =
      ((responseRows response).find? (fun r => readLabels J dimensions r = labels)).toList := by
  rcases hfind : (responseRows response).find? (fun r => readLabels J dimensions r = labels) with _ | found
  · exact List.filter_eq_nil_iff.mpr (List.find?_eq_none.mp hfind)
  · have hlabels : readLabels J dimensions found = labels := by simpa using List.find?_some hfind
    have hkeyed : Keyed (readLabels J dimensions) (responseRows response) := response.distinct
    rw [← hlabels]
    exact hkeyed.filter_key (List.mem_of_find?_eq_some hfind)

theorem ownValue_eq_sum (response : SeriesResponse J dimensions) (labels : List JsString) :
    ownValue response labels = (((responseRows response).filter (fun r => readLabels J dimensions r = labels)).map
      fun r => readNumber J r.value).sum := by
  rw [filter_labels, ownValue]
  rcases (responseRows response).find? (fun r => readLabels J dimensions r = labels) with _ | found
  · rfl
  · exact (List.sum_singleton).symm

/-! ## The table is right -/

section Right

variable (h : KeysApart series)

include h

/-- Of each series an entry has the series' own value. -/
theorem entry_value {key : JsString} {row : TableRow ν}
    (hrow : (key, row) ∈ mergedRows J (series.map (·.rows)) dimensions) (i : Nat) :
    (row.series i).getD 0 = (series[i]?).elim 0 fun response => ownValue response row.labels := by
  obtain ⟨⟨hoccurs, hkey⟩, hseries⟩ := mergedRows_entry hrow
  -- a key's rows are those with the entry's labels
  have hsame : ∀ e ∈ seriesRows (series.map (·.rows)),
      joinLabels (readLabels J dimensions e.2) = key ↔ readLabels J dimensions e.2 = row.labels := by
    intro e he
    refine ⟨fun hjoin => h _ _ (occurs_iff.mpr ⟨e, he, rfl⟩) hoccurs (hjoin.trans hkey.symm), fun heq => ?_⟩
    rw [heq, hkey]
  have hfilter : ((seriesRows (series.map (·.rows))).filter
      (fun e => joinLabels (readLabels J dimensions e.2) = key)).filter (fun e => e.1 = i) =
      (((series.map responseRows).getD i []).filter (fun r => readLabels J dimensions r = row.labels)).map (i, ·) := by
    rw [List.filter_filter, List.filter_congr (fun e he => by
      rw [Bool.and_comm, decide_eq_decide.mpr (hsame e he)]), ← List.filter_filter, filter_seriesRows, List.filter_map]
    rfl
  rw [hseries, hfilter, List.getD_eq_getElem?_getD, List.getElem?_map]
  rcases series[i]? with _ | response
  · rfl
  simp only [Option.map_some, Option.getD_some, Option.elim_some, ownValue]
  rw [filter_labels]
  rcases (responseRows response).find? (fun r => readLabels J dimensions r = row.labels) <;> rfl

theorem tableRight_of_keysApart : TableRight series (tableOf series) := by
  have hentries : ∀ filled ∈ tableOf series, ∃ key row,
      (key, row) ∈ mergedRows J (series.map (·.rows)) dimensions ∧ filled.labels = row.labels := by
    intro filled hfilled
    obtain ⟨⟨key, row⟩, hrow, rfl⟩ := List.mem_map.mp hfilled
    exact ⟨key, row, hrow, rfl⟩
  have hvalues : ∀ filled ∈ tableOf series, filled.values = series.map fun response => ownValue response filled.labels := by
    intro filled hfilled
    obtain ⟨⟨key, row⟩, hrow, rfl⟩ := List.mem_map.mp hfilled
    refine List.ext_getElem (by simp) fun i hi hi' => ?_
    rw [List.length_map] at hi'
    rw [List.getElem_map, List.getElem_map, List.getElem_range, entry_value h hrow, List.getElem?_eq_getElem hi']
    rfl
  have hdistinct : ((tableOf series).map (·.labels)).Nodup := by
    rw [tableOf, mergeSeriesRowsForTable, List.map_map]
    refine List.Nodup.map_on ?_ (List.Nodup.of_map Prod.fst keyed_fill)
    rintro ⟨key, row⟩ hrow ⟨key', row'⟩ hrow' hlabels
    have hlabels : row.labels = row'.labels := hlabels
    have hkeys : key = key' := by
      rw [← (mergedRows_entry hrow).1.2, ← (mergedRows_entry hrow').1.2, hlabels]
    exact keyed_fill.eq_of_key hrow hrow' hkeys
  have hoccurs : ∀ labels, labels ∈ (tableOf series).map (·.labels) ↔ Occurs series labels := by
    intro labels
    constructor
    · intro hmem
      obtain ⟨filled, hfilled, rfl⟩ := List.mem_map.mp hmem
      obtain ⟨key, row, hrow, heq⟩ := hentries filled hfilled
      rw [heq]
      exact (mergedRows_entry hrow).1.1
    · intro hlabels
      obtain ⟨row, hrow⟩ := mem_mergedRows_of_occurs hlabels
      have heq : row.labels = labels :=
        h _ _ (mergedRows_entry hrow).1.1 hlabels (mergedRows_entry hrow).1.2
      exact List.mem_map.mpr ⟨_, List.mem_map.mpr ⟨_, hrow, rfl⟩, heq⟩
  refine ⟨hdistinct, hoccurs, hvalues, fun i response hresponse => ?_⟩
  have hcolumn : (tableOf series).map (fun filled => filled.values.getD i 0) =
      ((tableOf series).map (·.labels)).map fun labels => (((responseRows response).filter
        (fun r => readLabels J dimensions r = labels)).map fun r => readNumber J r.value).sum := by
    rw [List.map_map]
    refine List.map_congr_left fun filled hfilled => ?_
    rw [hvalues filled hfilled, List.getD_eq_getElem?_getD, List.getElem?_map, hresponse, Function.comp_apply,
      ← ownValue_eq_sum]
    rfl
  rw [hcolumn]
  exact sum_by_key _ hdistinct fun row hrow =>
    (hoccurs _).mpr ⟨response, List.mem_of_getElem? hresponse, row, hrow, rfl⟩

end Right

/-- Two tuples in the table have two keys. -/
theorem keysApart_of_tableRight (h : TableRight series (tableOf series)) : KeysApart series := by
  intro labels labels' hlabels hlabels' hjoin
  have hrow : ∀ labels, Occurs series labels → ∃ row,
      (joinLabels labels, row) ∈ mergedRows J (series.map (·.rows)) dimensions ∧ row.labels = labels := by
    intro labels hlabels
    obtain ⟨filled, hfilled, heq⟩ := List.mem_map.mp ((h.occurs labels).mpr hlabels)
    obtain ⟨⟨key, row⟩, hrow, rfl⟩ := List.mem_map.mp hfilled
    have heq : row.labels = labels := heq
    refine ⟨row, ?_, heq⟩
    rw [← heq, (mergedRows_entry hrow).1.2]
    exact hrow
  obtain ⟨row, hmem, rfl⟩ := hrow labels hlabels
  obtain ⟨row', hmem', rfl⟩ := hrow labels' hlabels'
  exact congrArg (fun p => p.2.labels) (keyed_fill.eq_of_key hmem hmem' hjoin)

/-- **The table has one row for every tuple of labels, with each series' own values, exactly
when no two tuples that occur are joined to one text.** -/
theorem table_right_iff (J : JsNumbers ν) (dimensions : List Dimension) (series : List (SeriesResponse J dimensions)) :
    TableRight series (tableOf series) ↔ KeysApart series :=
  ⟨keysApart_of_tableRight, tableRight_of_keysApart⟩

/-! ## Labels that hold the separator -/

/-- Whole numbers; no text of the example is one. -/
def plainNumbers : JsNumbers Int where
  write n := units (toString n).toList
  read _ := none

def labelledRow (category account : JsString) (n : Int) : QueryRow Int where
  cells
    | .category => .text category
    | .account => .text account
    | _ => .null
  value := .number n

/-- Two rows that differ in where their labels are cut. -/
def cutResponse : SeriesResponse plainNumbers [.category, .account] where
  rows := some [labelledRow [97, 1, 98] [99] 1, labelledRow [97] [98, 1, 99] 2]
  distinct := by decide

/-- The second row's amount stands in the first one's place. -/
theorem cutResponse_merged : ¬ TableRight [cutResponse] (tableOf [cutResponse]) := by
  intro h
  have hjoin : joinLabels [[97, 1, 98], [99]] = joinLabels [[97], [98, 1, 99]] := rfl
  have hsame := keysApart_of_tableRight h [[97, 1, 98], [99]] [[97], [98, 1, 99]]
    ⟨_, List.mem_cons_self, _, List.mem_cons_self, rfl⟩
    ⟨_, List.mem_cons_self, _, List.mem_cons_of_mem _ List.mem_cons_self, rfl⟩ hjoin
  cases hsame

end BetterDecision
