import BetterDecision.Model.AbnTab
import BetterDecision.Proof.ImportAmounts

/-!
# Files that are refused, and rows that can be confirmed

`parse_tab` refuses a text or gives rows that a confirm takes as they are. `parse_csv` does the same
for the rows of no record that is wider than the header, as long as the `csv` reader reads the text
and no amount is zero or less: the first two raise an exception the route has no answer for, and the
last is a row the confirm refuses.
-/

namespace BetterDecision

open Calendar

variable {i : Nat} {row : List (Str × Str)} {r : ParsedRow} {fieldnames record : List Str} {records : List (List Str)}
  {failure : Option String} {rows : List ParsedRow} {content text : Str} {amount : Decimal} {date : Int}

/-! ## Cells -/

/-- An amount that is read is one of money. -/
theorem parseAmount_fits (h : parseAmount text = .ok amount) : ∃ x, amount.toRat = some x ∧ FitsMoney x := by
  obtain ⟨negative, n, e, ⟨-, -, hfits⟩, rfl⟩ := (parseAmount_iff text).mp h
  exact ⟨_, rfl, hfits⟩

theorem dateOf_valid {year month day : Nat} (h : dateOf year month day = some date) : 1 ≤ date ∧ date ≤ dateMax := by
  simp only [dateOf] at h
  split at h
  · rename_i hvalid
    obtain ⟨hyear, hlast, hmonth, hdecember, hday, hlength⟩ := hvalid
    obtain rfl := Option.some.inj h
    set k : Int := 12 * year + (month - 1) with hk
    have hfirst : monthStart 12 ≤ monthStart k := monthStart_strictMono.monotone (by omega)
    have hend : monthStart (k + 1) ≤ monthStart 120000 := monthStart_strictMono.monotone (by omega)
    have hnext := monthStart_succ k
    have hzero : monthStart 12 = 0 := by decide +kernel
    have hmax : monthStart 120000 = dateMax := by decide +kernel
    omega
  · cases h

/-- A date that is read is a date. -/
theorem parseDate_valid (h : parseDateYyyymmdd text = .ok date) : 1 ≤ date ∧ date ≤ dateMax := by
  simp only [parseDateYyyymmdd] at h
  split at h
  · cases h
  split at h
  · rename_i d hdate
    obtain rfl := Except.ok.inj h
    obtain ⟨year, -, hdate⟩ := Option.bind_eq_some_iff.mp hdate
    obtain ⟨month, -, hdate⟩ := Option.bind_eq_some_iff.mp hdate
    obtain ⟨day, -, hdate⟩ := Option.bind_eq_some_iff.mp hdate
    exact dateOf_valid hdate
  · cases h

theorem atRow_ok {α : Type} {x : Except ParseError α} {a : α} : atRow i x = .ok a ↔ x = .ok a := by
  cases x <;> simp [atRow]

/-- A stripped text that is not empty is still not blank when it is clipped. -/
theorem strip_clipDescription (h : Str.strip text ≠ []) : Str.strip (clipDescription (Str.strip text)) ≠ [] := by
  obtain ⟨c, cs, htext⟩ := List.exists_cons_of_ne_nil h
  have hhead : isSpace c = false := head?_trim (p := isSpace) c (by
    rw [← Str.strip, htext]
    rfl)
  intro hblank
  have hall := trim_eq_nil_iff.mp hblank c (by rw [htext]; exact List.mem_cons_self ..)
  rw [hhead] at hall
  cases hall

/-! ## Rows of a CSV file -/

/-- The cells of a record, under the names of the header. -/
def recordCells (fieldnames record : List Str) : List (Str × Str) := normalizeRow (dictRow fieldnames record)

/-- The row holds what the cells say. -/
structure RowOf (row : List (Str × Str)) (i : Nat) (r : ParsedRow) : Prop where
  number : r.rowNumber = i
  date : parseDateYyyymmdd (dictGet row "Date" []) = .ok r.date
  amount : parseAmount (dictGet row "Amount (EUR)" ['0']) = .ok r.amount
  notBlank : Str.strip (dictGet row "Name / Description" []) ≠ []
  description : r.description = clipDescription (Str.strip (dictGet row "Name / Description" []))
  type : r.type = if dictGet row "Debit/credit" [] = "Debit".toList then .expense else .income

/-- The cells a row needs can be read. -/
structure ReadableRow (row : List (Str × Str)) : Prop where
  date : ∃ d, parseDateYyyymmdd (dictGet row "Date" []) = .ok d
  amount : ∃ a, parseAmount (dictGet row "Amount (EUR)" ['0']) = .ok a
  notBlank : Str.strip (dictGet row "Name / Description" []) ≠ []

theorem parseRow_rowOf (h : parseRow i row = .ok r) : RowOf row i r := by
  simp only [parseRow] at h
  obtain ⟨d, hdate, h⟩ := bind_eq_ok.mp h
  obtain ⟨a, hamount, h⟩ := bind_eq_ok.mp h
  split at h
  · cases h
  · rename_i hblank
    obtain rfl := Except.ok.inj h
    exact ⟨rfl, atRow_ok.mp hdate, atRow_ok.mp hamount, hblank, rfl, rfl⟩

theorem parseRow_iff : (∃ r, parseRow i row = .ok r) ↔ ReadableRow row := by
  constructor
  · rintro ⟨r, h⟩
    have hrow := parseRow_rowOf h
    exact ⟨⟨_, hrow.date⟩, ⟨_, hrow.amount⟩, hrow.notBlank⟩
  · rintro ⟨⟨d, hdate⟩, ⟨a, hamount⟩, hblank⟩
    simp only [parseRow, hdate, hamount, atRow, if_neg hblank]
    exact ⟨_, rfl⟩

/-- A record no wider than the header, with cells that can be read. -/
def ReadableRecord (fieldnames record : List Str) : Prop :=
  record.length ≤ fieldnames.length ∧ ReadableRow (recordCells fieldnames record)

/-- The records with a field on them. -/
def dataRecords (records : List (List Str)) : List (List Str) := records.filter (· ≠ [])

theorem dataRecords_cons (hne : record ≠ []) : dataRecords (record :: records) = record :: dataRecords records :=
  List.filter_cons_of_pos (decide_eq_true hne)

theorem dataRecords_blank : dataRecords ([] :: records) = dataRecords records :=
  List.filter_cons_of_neg (by simp)

/-- Behind records that are all read, and within the cap, one is wider than the header or the reader
fails. -/
inductive Derails (fieldnames : List Str) (failure : Option String) : Nat → List (List Str) → Prop
  | reader {i : Nat} : failure.isSome → Derails fieldnames failure i []
  | wide {i : Nat} {record : List Str} {rest : List (List Str)} : i ≤ maxImportRows →
      fieldnames.length < record.length → Derails fieldnames failure i (record :: rest)
  | later {i : Nat} {record : List Str} {rest : List (List Str)} : i ≤ maxImportRows →
      ReadableRecord fieldnames record → Derails fieldnames failure (i + 1) rest →
      Derails fieldnames failure i (record :: rest)

/-- An exception the route has no answer for. -/
def Uncaught (e : Raised) : Prop := ∀ error, e ≠ .parseError error

theorem parseRecords_derails_iff : (∃ e, parseRecords fieldnames failure i records = .error e ∧ Uncaught e) ↔
    Derails fieldnames failure i (dataRecords records) := by
  induction records generalizing i with
  | nil =>
    cases failure with
    | none =>
      refine iff_of_false (by simp [parseRecords]) ?_
      rintro ⟨h⟩
      cases h
    | some message => exact iff_of_true ⟨_, rfl, by simp [Uncaught]⟩ (.reader rfl)
  | cons record records ih =>
    rw [parseRecords]
    by_cases hne : record = []
    · subst hne
      rw [if_pos rfl, dataRecords_blank]
      exact ih
    rw [if_neg hne, dataRecords_cons hne]
    by_cases hcap : maxImportRows < i
    · rw [if_pos hcap]
      refine iff_of_false (by simp [Uncaught]) ?_
      rintro (_ | ⟨hi, _⟩ | ⟨hi, _, _⟩) <;> omega
    rw [if_neg hcap]
    have hi : i ≤ maxImportRows := by omega
    by_cases hwide : fieldnames.length < record.length
    · rw [if_pos hwide]
      exact iff_of_true ⟨_, rfl, by simp [Uncaught]⟩ (.wide hi hwide)
    rw [if_neg hwide]
    -- the record stops the loop, or it is read and the rest decides
    cases hrow : parseRow i (normalizeRow (dictRow fieldnames record)) with
    | error e =>
      refine iff_of_false (by simp [Uncaught]) ?_
      rintro (_ | ⟨_, hlong⟩ | ⟨_, ⟨-, hreadable⟩, _⟩)
      · exact hwide hlong
      · obtain ⟨r, hr⟩ := parseRow_iff.mpr hreadable
        rw [recordCells, hrow] at hr
        cases hr
    | ok r =>
      have hreadable : ReadableRecord fieldnames record := ⟨by omega, parseRow_iff.mp ⟨r, hrow⟩⟩
      have hrest : Derails fieldnames failure i (record :: dataRecords records) ↔
          Derails fieldnames failure (i + 1) (dataRecords records) := by
        constructor
        · rintro (_ | ⟨_, hlong⟩ | ⟨_, _, h⟩)
          · exact absurd hlong hwide
          · exact h
        · exact .later hi hreadable
      rw [hrest, ← ih]
      cases parseRecords fieldnames failure (i + 1) records <;> simp

/-- The rows that are read, one for each record and in the order of the records. -/
theorem parseRecords_rows (h : parseRecords fieldnames failure i records = .ok rows) :
    List.Forall₂ (fun record r => RowOf (recordCells fieldnames record.1) record.2 r) ((dataRecords records).zipIdx i)
      rows := by
  induction records generalizing i rows with
  | nil =>
    cases failure with
    | none =>
      obtain rfl := Except.ok.inj h
      exact .nil
    | some message => cases h
  | cons record records ih =>
    rw [parseRecords] at h
    by_cases hne : record = []
    · subst hne
      rw [if_pos rfl] at h
      rw [dataRecords_blank]
      exact ih h
    rw [if_neg hne] at h
    rw [dataRecords_cons hne, List.zipIdx_cons]
    split at h
    · cases h
    split at h
    · cases h
    cases hrow : parseRow i (normalizeRow (dictRow fieldnames record)) with
    | error e =>
      rw [hrow] at h
      cases h
    | ok r =>
      rw [hrow] at h
      cases hrest : parseRecords fieldnames failure (i + 1) records with
      | error e =>
        rw [hrest] at h
        cases h
      | ok rest =>
        rw [hrest] at h
        obtain rfl := Except.ok.inj h
        exact .cons (parseRow_rowOf hrow) (ih hrest)

theorem parseRecords_ok_iff (hi : i ≤ maxImportRows + 1) :
    (∃ rows, parseRecords fieldnames failure i records = .ok rows) ↔
      failure = none ∧ (∀ record ∈ dataRecords records, ReadableRecord fieldnames record) ∧
        i + (dataRecords records).length ≤ maxImportRows + 1 := by
  induction records generalizing i with
  | nil => cases failure <;> simp [parseRecords, dataRecords, hi]
  | cons record records ih =>
    rw [parseRecords]
    by_cases hne : record = []
    · subst hne
      rw [if_pos rfl, dataRecords_blank]
      exact ih hi
    rw [if_neg hne, dataRecords_cons hne, List.forall_mem_cons, List.length_cons]
    by_cases hcap : maxImportRows < i
    · rw [if_pos hcap]
      refine iff_of_false (by simp) ?_
      rintro ⟨-, -, hcount⟩
      omega
    rw [if_neg hcap]
    by_cases hwide : fieldnames.length < record.length
    · rw [if_pos hwide]
      refine iff_of_false (by simp) ?_
      rintro ⟨-, ⟨⟨hlong, -⟩, -⟩, -⟩
      omega
    rw [if_neg hwide]
    cases hrow : parseRow i (normalizeRow (dictRow fieldnames record)) with
    | error e =>
      refine iff_of_false (by simp) ?_
      rintro ⟨-, ⟨⟨-, hreadable⟩, -⟩, -⟩
      obtain ⟨r, hr⟩ := parseRow_iff.mpr hreadable
      rw [recordCells, hrow] at hr
      cases hr
    | ok r =>
      have hreadable : ReadableRecord fieldnames record := ⟨by omega, parseRow_iff.mp ⟨r, hrow⟩⟩
      have hih := ih (i := i + 1) (by omega)
      cases hrest : parseRecords fieldnames failure (i + 1) records with
      | error e =>
        rw [hrest] at hih
        have hno := hih.not.mp (by simp)
        refine iff_of_false (by simp) ?_
        rintro ⟨hreader, ⟨-, hrecords⟩, hcount⟩
        exact hno ⟨hreader, hrecords, by omega⟩
      | ok rest =>
        rw [hrest] at hih
        obtain ⟨hreader, hrecords, hcount⟩ := hih.mp ⟨rest, rfl⟩
        exact iff_of_true ⟨_, rfl⟩ ⟨hreader, ⟨hreadable, hrecords⟩, by omega⟩

/-! ## A whole CSV file -/

/-- What the reader makes of the text: the records, and the error that ends them. -/
def csvFile (content : Str) : List (List Str) × Option String :=
  csvRecords (detectDelimiter (stripBom content)) (stripBom content)

def csvHeader (content : Str) : List Str := (csvFile content).1.head?.getD []

/-- The data lines: the records behind the header that are not blank. -/
def csvData (content : Str) : List (List Str) := dataRecords (csvFile content).1.tail

/-- There is a header, with the columns a row needs. -/
structure HasColumns (content : Str) : Prop where
  header : (csvFile content).1 ≠ []
  columns : ∀ column ∈ requiredColumns, column.toList ∈ (csvHeader content).map cleanCell

/-- A row that can be confirmed as it is. -/
structure RowConfirmable (r : ParsedRow) : Prop extends AcceptedByCreate r where
  date : 1 ≤ r.date ∧ r.date ≤ dateMax

/-- The text is refused, or it has rows: one for each data line, in their order, and each of them can
be confirmed. -/
structure CsvSafe (content : Str) : Prop where
  refused : ∀ e, parseCsv content = .error e → ¬ Uncaught e
  rows : ∀ rows, parseCsv content = .ok rows → rows ≠ [] ∧ (∀ r ∈ rows, RowConfirmable r) ∧
    List.Forall₂ (fun record r => RowOf (recordCells (csvHeader content) record.1) record.2 r)
      ((csvData content).zipIdx 1) rows

/-- The amount of a record is read, and it is zero or less. -/
def NotPositive (fieldnames record : List Str) : Prop :=
  ∃ amount x, parseAmount (dictGet (recordCells fieldnames record) "Amount (EUR)" ['0']) = .ok amount ∧
    amount.toRat = some x ∧ x ≤ 0

/-- The ways a text gets past `parse_csv`: the reader fails at the header, or behind it records that
are all read come to one wider than the header or to where the reader fails, or all records are read
and one has an amount that is not positive. -/
inductive Misparsed (content : Str) : Prop
  | header : (csvFile content).1 = [] → (csvFile content).2.isSome → Misparsed content
  | derails : HasColumns content → Derails (csvHeader content) (csvFile content).2 1 (csvData content) →
      Misparsed content
  | notPositive : HasColumns content → (csvFile content).2 = none → (csvData content).length ≤ maxImportRows →
      (∀ record ∈ csvData content, ReadableRecord (csvHeader content) record) →
      (∃ record ∈ csvData content, NotPositive (csvHeader content) record) → Misparsed content

theorem parseCsv_eq (content : Str) : parseCsv content =
    match csvFile content with
    | ([], some message) => .error (.csvError message)
    | ([], none) => .error (.parseError { message := "CSV file is empty or has no header row" })
    | (fieldnames :: records, failure) =>
      let missing := requiredColumns.filter fun column => column.toList ∉ fieldnames.map cleanCell
      if missing ≠ [] then .error (.parseError { message := "Missing required columns: " ++ ", ".intercalate missing })
      else
        match parseRecords fieldnames failure 1 records with
        | .error e => .error e
        | .ok [] => .error (.parseError { message := "CSV file contains no transaction rows" })
        | .ok rows => .ok rows := rfl

/-- A file without a header is refused, unless the reader has failed. -/
theorem parseCsv_no_header (h : (csvFile content).1 = []) :
    ((∃ e, parseCsv content = .error e ∧ Uncaught e) ↔ (csvFile content).2.isSome) ∧
    ∀ rows, parseCsv content ≠ .ok rows := by
  rw [parseCsv_eq]
  rcases hfile : csvFile content with ⟨records, failure⟩
  rw [hfile] at h
  obtain rfl : records = [] := h
  cases failure with
  | none => simp [Uncaught]
  | some message => simp [Uncaught]

/-- A file without one of the columns is refused. -/
theorem parseCsv_no_columns (hheader : (csvFile content).1 ≠ []) (h : ¬ HasColumns content) :
    ∃ error, parseCsv content = .error (.parseError error) := by
  rw [parseCsv_eq]
  rcases hfile : csvFile content with ⟨records, failure⟩
  cases records with
  | nil => exact absurd (by rw [hfile]) hheader
  | cons fieldnames records =>
    have hmissing : (requiredColumns.filter fun column => column.toList ∉ fieldnames.map cleanCell) ≠ [] := by
      intro hnone
      refine h ⟨hheader, fun column hcolumn => ?_⟩
      have hall := List.filter_eq_nil_iff.mp hnone column hcolumn
      have hname : csvHeader content = fieldnames := by rw [csvHeader, hfile]; rfl
      rw [hname]
      by_contra hno
      exact hall (decide_eq_true hno)
    exact ⟨_, if_pos hmissing⟩

/-- What a file with the columns comes to is what its records come to. -/
theorem parseCsv_columns (h : HasColumns content) :
    ((∃ e, parseCsv content = .error e ∧ Uncaught e) ↔
      ∃ e, parseRecords (csvHeader content) (csvFile content).2 1 (csvFile content).1.tail = .error e ∧ Uncaught e) ∧
    ∀ rows, parseCsv content = .ok rows ↔
      rows ≠ [] ∧ parseRecords (csvHeader content) (csvFile content).2 1 (csvFile content).1.tail = .ok rows := by
  obtain ⟨hheader, hcolumns⟩ := h
  rw [parseCsv_eq]
  rcases hfile : csvFile content with ⟨records, failure⟩
  rw [csvHeader, hfile] at hcolumns
  rw [hfile] at hheader
  cases records with
  | nil => exact absurd rfl hheader
  | cons fieldnames records =>
    have hname : csvHeader content = fieldnames := by rw [csvHeader, hfile]; rfl
    have hmissing : (requiredColumns.filter fun column => column.toList ∉ fieldnames.map cleanCell) = [] :=
      List.filter_eq_nil_iff.mpr fun column hcolumn => by simpa using hcolumns column hcolumn
    rw [hname]
    simp only [hmissing, ne_eq, not_true, if_false, List.tail_cons]
    cases parseRecords fieldnames failure 1 records with
    | error e => simp
    | ok rows =>
      cases rows with
      | nil => simp [Uncaught]
      | cons r rows =>
        refine ⟨by simp, fun rows' => ?_⟩
        constructor
        · intro h
          obtain rfl := Except.ok.inj h
          exact ⟨by simp, rfl⟩
        · exact fun h => h.2

theorem RowOf.confirmable_iff (h : RowOf row i r) : RowConfirmable r ↔ ∃ x ∈ r.amount.toRat, 0 < x := by
  constructor
  · intro hr
    obtain ⟨x, hx, -, hpos⟩ := hr.amount
    exact ⟨x, hx, hpos⟩
  · rintro ⟨x, hx, hpos⟩
    obtain ⟨y, hy, hfits⟩ := parseAmount_fits h.amount
    obtain rfl : x = y := Option.some.inj (hx.symm.trans hy)
    refine { description := r.clipped, amount := ⟨x, hx, hfits, hpos⟩, type := ?_, notEmpty := ?_, date := ?_ }
    · rw [h.type]
      split
      · exact .inr rfl
      · exact .inl rfl
    · rw [h.description]
      exact strip_clipDescription h.notBlank
    · exact parseDate_valid h.date

/-- A record with an amount that is not positive has a row that cannot be confirmed, and the other way
round. -/
theorem RowOf.notPositive_iff (h : RowOf (recordCells fieldnames record) i r) :
    NotPositive fieldnames record ↔ ¬ RowConfirmable r := by
  rw [h.confirmable_iff]
  obtain ⟨x, hx, -⟩ := parseAmount_fits h.amount
  constructor
  · rintro ⟨amount, y, hamount, hy, hle⟩ ⟨z, hz, hpos⟩
    obtain rfl := Except.ok.inj (h.amount.symm.trans hamount)
    obtain rfl : y = z := Option.some.inj (hy.symm.trans hz)
    linarith
  · intro hno
    refine ⟨r.amount, x, h.amount, hx, ?_⟩
    by_contra hpos
    exact hno ⟨x, hx, not_le.mp hpos⟩

theorem csvSafe_iff (content : Str) : CsvSafe content ↔ ¬ Misparsed content := by
  constructor
  · rintro h (⟨hnone, hfailure⟩ | ⟨hcolumns, hderails⟩ | ⟨hcolumns, hreader, hcount, hreadable, record, hrecord, hno⟩)
    · obtain ⟨e, he, huncaught⟩ := (parseCsv_no_header hnone).1.mpr hfailure
      exact h.refused e he huncaught
    · obtain ⟨e, he, huncaught⟩ := (parseCsv_columns hcolumns).1.mpr (parseRecords_derails_iff.mpr hderails)
      exact h.refused e he huncaught
    · obtain ⟨rows, hrows⟩ := (parseRecords_ok_iff (show 1 ≤ maxImportRows + 1 by omega)).mpr
        ⟨hreader, hreadable, by rw [csvData] at hcount; omega⟩
      have hpairs := parseRecords_rows hrows
      obtain ⟨pair, hpair, rfl⟩ : ∃ pair ∈ (csvData content).zipIdx 1, pair.1 = record := by
        rw [← List.zipIdx_map_fst 1 (csvData content)] at hrecord
        exact List.mem_map.mp hrecord
      obtain ⟨r, hr, hrow⟩ := (exists_partner hpairs).1 pair hpair
      have hok := ((parseCsv_columns hcolumns).2 rows).mpr ⟨List.ne_nil_of_mem hr, hrows⟩
      exact hrow.notPositive_iff.mp hno ((h.rows rows hok).2.1 r hr)
  · intro h
    have hheader : ∀ {rows}, parseCsv content = .ok rows → HasColumns content := by
      intro rows hok
      by_contra hcolumns
      by_cases hnone : (csvFile content).1 = []
      · exact (parseCsv_no_header hnone).2 rows hok
      · obtain ⟨error, herror⟩ := parseCsv_no_columns hnone hcolumns
        rw [herror] at hok
        cases hok
    refine ⟨fun e he huncaught => ?_, fun rows hok => ?_⟩
    · by_cases hnone : (csvFile content).1 = []
      · exact h (.header hnone ((parseCsv_no_header hnone).1.mp ⟨e, he, huncaught⟩))
      by_cases hcolumns : HasColumns content
      · exact h (.derails hcolumns (parseRecords_derails_iff.mp ((parseCsv_columns hcolumns).1.mp ⟨e, he, huncaught⟩)))
      · obtain ⟨error, herror⟩ := parseCsv_no_columns hnone hcolumns
        obtain rfl := Except.error.inj (he.symm.trans herror)
        exact huncaught error rfl
    · have hcolumns := hheader hok
      obtain ⟨hne, hrows⟩ := ((parseCsv_columns hcolumns).2 rows).mp hok
      obtain ⟨hreader, hreadable, hcount⟩ := (parseRecords_ok_iff (show 1 ≤ maxImportRows + 1 by omega)).mp ⟨rows, hrows⟩
      have hpairs := parseRecords_rows hrows
      refine ⟨hne, fun r hr => ?_, hpairs⟩
      obtain ⟨pair, hpair, hrow⟩ := (exists_partner hpairs).2 r hr
      by_contra hno
      refine h (.notPositive hcolumns hreader ?_ hreadable ⟨pair.1, List.fst_mem_of_mem_zipIdx hpair, ?_⟩)
      · rw [csvData]
        omega
      · exact hrow.notPositive_iff.mpr hno

/-! ## TAB files -/

/-- A description is a stripped text, whichever branch it comes from. -/
theorem parseAbnDescription_stripped (raw : Str) : ∃ stripped, (parseAbnDescription raw).1 = Str.strip stripped := by
  simp only [parseAbnDescription]
  split
  · split
    · exact ⟨_, rfl⟩
    · exact ⟨_, rfl⟩
  split
  · split
    · rename_i hmerchant
      dsimp only
      cases hsegment : ((splitMultispace [] 0 (Str.strip raw)).map Str.strip |>.filter (· ≠ []))[1]? with
      | none => exact ⟨[], rfl⟩
      | some segment => exact ⟨_, rfl⟩
    · exact ⟨_, rfl⟩
  · exact ⟨_, rfl⟩

theorem numeralValue_sign (negative : Bool) (n : Nat) (e : Int) :
    numeralValue negative n e = if negative then -numeralValue false n e else numeralValue false n e := by
  cases negative <;> simp [numeralValue]

theorem fitsMoney_neg {x : ℚ} : FitsMoney (-x) ↔ FitsMoney x := by
  unfold FitsMoney
  rw [neg_mul, Rat.den_neg_eq_den, abs_neg]

/-- An amount that is not zero is positive without its sign. -/
theorem abs_amount (h : parseAmount text = .ok amount) (hne : amount.toRat.getD 0 ≠ 0) :
    ∃ x ∈ amount.abs.toRat, FitsMoney x ∧ 0 < x := by
  obtain ⟨negative, n, e, ⟨-, -, hfits⟩, rfl⟩ := (parseAmount_iff text).mp h
  refine ⟨numeralValue false n e, rfl, ?_, ?_⟩
  · rw [numeralValue_sign] at hfits
    cases negative with
    | false => exact hfits
    | true => exact fitsMoney_neg.mp hfits
  · have hvalue : numeralValue negative n e ≠ 0 := hne
    rw [numeralValue_sign] at hvalue
    have hnonneg : 0 ≤ numeralValue false n e := by
      have hplain : numeralValue false n e = n * 10 ^ e := by simp [numeralValue]
      rw [hplain]
      exact mul_nonneg (Nat.cast_nonneg n) (zpow_nonneg (by norm_num) e)
    refine lt_of_le_of_ne hnonneg fun hzero => hvalue ?_
    rw [← hzero]
    split <;> simp

/-- The row holds what the fields of the line say. -/
structure TabRowOf (line : Str) (i : Nat) (r : ParsedRow) : Prop where
  number : r.rowNumber = i
  date : ∃ bookDate ∈ (tabFields line)[2]?, parseDateYyyymmdd bookDate = .ok r.date
  amount : ∃ amountRaw ∈ (tabFields line)[6]?, ∃ signed, parseAmount amountRaw = .ok signed ∧ r.amount = signed.abs ∧
    r.type = if signed.toRat.getD 0 < 0 then .expense else .income
  description : ∃ raw ∈ (tabFields line)[7]?, r.description = clipDescription (parseAbnDescription raw).1

/-- A line has a row, or it moves no money. -/
inductive LineRow (line : Str) (i : Nat) : Option ParsedRow → Prop
  | zero {amountRaw : Str} {amount : Decimal} : (tabFields line)[6]? = some amountRaw →
      parseAmount amountRaw = .ok amount → amount.toRat.getD 0 = 0 → LineRow line i none
  | row {r : ParsedRow} : TabRowOf line i r → RowConfirmable r → LineRow line i (some r)

theorem parseLine_lineRow {line : Str} {result : Option ParsedRow} (h : parseLine i line = .ok result) :
    LineRow line i result := by
  simp only [parseLine] at h
  split at h
  · rename_i accountNumber currency bookDate balanceBefore balanceAfter valueDate amountRaw descriptionRaw hfields
    obtain ⟨d, hdate, h⟩ := bind_eq_ok.mp h
    obtain ⟨signed, hamount, h⟩ := bind_eq_ok.mp h
    have hdate := atRow_ok.mp hdate
    have hamount := atRow_ok.mp hamount
    have hsixth : (tabFields line)[6]? = some amountRaw := by rw [hfields]; rfl
    by_cases hzero : signed.toRat.getD 0 = 0
    · rw [if_pos hzero] at h
      obtain rfl := Except.ok.inj h
      exact .zero hsixth hamount hzero
    rw [if_neg hzero] at h
    by_cases hblank : (parseAbnDescription descriptionRaw).1 = []
    · rw [if_pos hblank] at h
      cases h
    rw [if_neg hblank] at h
    obtain rfl := Except.ok.inj h
    obtain ⟨stripped, hstripped⟩ := parseAbnDescription_stripped descriptionRaw
    refine .row ⟨rfl, ⟨bookDate, by rw [hfields]; rfl, hdate⟩, ⟨amountRaw, hsixth, signed, hamount, rfl, rfl⟩,
      ⟨descriptionRaw, by rw [hfields]; rfl, rfl⟩⟩ ?_
    refine
      { description := length_clipDescription _, amount := abs_amount hamount hzero, type := ?_, notEmpty := ?_
        date := parseDate_valid hdate }
    · dsimp only
      split
      · exact .inr rfl
      · exact .inl rfl
    · dsimp only
      rw [hstripped] at hblank ⊢
      exact strip_clipDescription hblank
  · cases h

theorem parseLines_rows {lines : List Str} (h : parseLines i lines = .ok rows) :
    ∃ results, List.Forall₂ (fun line result => LineRow line.1 line.2 result) (lines.zipIdx i) results ∧
      rows = results.reduceOption := by
  induction lines generalizing i rows with
  | nil =>
    obtain rfl := Except.ok.inj h
    exact ⟨[], .nil, rfl⟩
  | cons line lines ih =>
    rw [parseLines] at h
    split at h
    · cases h
    obtain ⟨result, hresult, h⟩ := bind_eq_ok.mp h
    obtain ⟨rest, hrest, h⟩ := bind_eq_ok.mp h
    obtain rfl := Except.ok.inj h
    obtain ⟨results, hresults, rfl⟩ := ih hrest
    refine ⟨result :: results, .cons (parseLine_lineRow hresult) hresults, ?_⟩
    cases result <;> rfl

/-- The rows of a text that is not refused: one for each line that is not blank and moves money, in
their order, and each of them can be confirmed. -/
structure TabSafe (content : Str) : Prop where
  rows : ∀ rows, parseTab content = .ok rows → rows ≠ [] ∧ (∀ r ∈ rows, RowConfirmable r) ∧
    ∃ results, List.Forall₂ (fun line result => LineRow line.1 line.2 result) ((tabLines content).zipIdx 1) results ∧
      rows = results.reduceOption

theorem tabSafe (content : Str) : TabSafe content := by
  refine ⟨fun rows h => ?_⟩
  obtain ⟨rows', hrows, h⟩ := bind_eq_ok.mp h
  split at h
  · cases h
  rename_i hne
  obtain rfl := Except.ok.inj h
  obtain ⟨results, hresults, heq⟩ := parseLines_rows hrows
  refine ⟨hne, fun r hr => ?_, results, hresults, heq⟩
  rw [heq, List.reduceOption_mem_iff] at hr
  obtain ⟨line, -, hline⟩ := (exists_partner hresults).2 _ hr
  cases hline with
  | row _ hconfirmable => exact hconfirmable

/-- A header with the columns, and one line under it. -/
def csvOf (newline line : String) : Str :=
  ("Date;Name / Description;Debit/credit;Amount (EUR)" ++ newline ++ line).toList

end BetterDecision
