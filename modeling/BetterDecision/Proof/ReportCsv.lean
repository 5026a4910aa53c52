import BetterDecision.Model.ReportCsv

/-!
# A downloaded report is read back, and runs nothing

Every cell comes back as its text, but that a text which a spreadsheet would take for a
formula has an apostrophe in front (`csv_reads_back`). A field that needs no quotes holds
none of the marks that a spreadsheet may split on, so it does not matter which of them one
takes for commas.
-/

namespace BetterDecision

open QuotedRecords

/-- What other readers than RFC 4180's split fields at. -/
def otherSeparators : JsString := units [';', '\t', '|']

/-- The marks of RFC 4180, and the other separators that a reader may split at. -/
def csvMarks (splits : UInt16 → Bool) : Marks UInt16 where
  separates u := u = unit ',' || otherSeparators.contains u && splits u
  quote := unit '"'
  cr := unit '\r'
  lf := unit '\n'
  quote_cr := by decide
  separates_quote := rfl
  separates_cr := rfl

/-- The field a cell is to be read back as. -/
def fieldOf : CsvCell → JsString
  | .null => []
  | .undefined => []
  | .number n => n.text
  | .text s => if formulaTrigger s = true ∧ numericLiteral.rmatch s = false then unit '\'' :: s else s

/-- No other separator is a mark of the writer, and none goes without quotes. -/
theorem otherSeparators_quoted {d : UInt16} (h : d ∈ otherSeparators) :
    quotedUnit d = true ∧ d ≠ unit ',' ∧ d ≠ unit '\r' ∧ d ≠ unit '\n' := by
  change d ∈ [unit ';', unit '\t', unit '|'] at h
  simp only [List.mem_cons, List.not_mem_nil, or_false] at h
  rcases h with rfl | rfl | rfl <;> decide

theorem guards_csvMarks (splits : UInt16 → Bool) : Guards quotedUnit (csvMarks splits) := by
  intro u hu
  rcases hu with hsep | rfl | rfl | rfl
  · rcases Bool.or_eq_true_iff.mp hsep with hcomma | hother'
    · rw [of_decide_eq_true hcomma]
      rfl
    · exact (otherSeparators_quoted (List.contains_iff_mem.mp (Bool.and_eq_true_iff.mp hother').1)).1
  · rfl
  · rfl
  · rfl

theorem quoteField_written (s : JsString) : Written quotedUnit (unit '"') (quoteField s) s := by
  rw [quoteField]
  split
  · exact .quoted s
  · next hplain =>
    refine .plain fun u hu => ?_
    by_contra hguarded
    exact hplain (List.any_eq_true.mpr ⟨u, hu, Bool.not_eq_false _ ▸ hguarded⟩)

/-- **A cell is written as a field.** -/
theorem escapeField_written (cell : CsvCell) : Written quotedUnit (unit '"') (escapeField cell) (fieldOf cell) := by
  cases cell with
  | null => exact .plain nofun
  | undefined => exact .plain nofun
  | number n => exact quoteField_written n.text
  | text s =>
    have htext : fieldOf (.text s) = if formulaTrigger s && !numericLiteral.rmatch s then unit '\'' :: s else s := by
      simp only [fieldOf, Bool.and_eq_true, Bool.not_eq_true']
    rw [escapeField, htext]
    exact quoteField_written _

/-- No text but a number is read back as the start of a formula. -/
theorem fieldOf_inert {s : JsString} (h : numericLiteral.rmatch s = false) :
    formulaTrigger (fieldOf (.text s)) = false := by
  rw [fieldOf]
  split
  · rfl
  · next hnot =>
    by_contra htrigger
    exact hnot ⟨Bool.not_eq_false _ ▸ htrigger, h⟩

theorem row_written (row : List CsvCell) :
    List.Forall₂ (Written quotedUnit (unit '"')) (row.map escapeField) (row.map fieldOf) := by
  induction row with
  | nil => exact .nil
  | cons cell row ih => exact .cons (escapeField_written cell) ih

/-- The lines of a report, header first. -/
def reportLines (headers : List JsString) (rows : List (List CsvCell)) : List (List CsvCell) :=
  headers.map .text :: rows

theorem lines_written (lines : List (List CsvCell)) :
    List.Forall₂ (List.Forall₂ (Written quotedUnit (unit '"'))) (lines.map (·.map escapeField))
      (lines.map (·.map fieldOf)) := by
  induction lines with
  | nil => exact .nil
  | cons row lines ih => exact .cons (row_written row) ih

theorem toCsv_eq (headers : List JsString) (rows : List (List CsvCell)) :
    toCsv headers rows =
      write (unit ',') (unit '\r') (unit '\n') ((reportLines headers rows).map (·.map escapeField)) := by
  simp only [toCsv, write, writeLine, reportLines, List.map_cons, List.map_map]
  rfl

/-- **A report of two columns or more is read back cell by cell**, whatever the reader splits at besides
commas; no text but a number starts a formula in it, and no other separator stands outside quotes. -/
theorem csv_reads_back (headers : List JsString) (rows : List (List CsvCell)) (hcolumns : 2 ≤ headers.length)
    (hrows : ∀ row ∈ rows, row.length = headers.length) :
    (∀ splits, parse (csvMarks splits) (toCsv headers rows) =
      some (headers.map (fun header => fieldOf (.text header)) :: rows.map (·.map fieldOf))) ∧
    (∀ s, numericLiteral.rmatch s = false → formulaTrigger (fieldOf (.text s)) = false) ∧
    ∀ d ∈ otherSeparators, d ∉ outside (unit '"') false (toCsv headers rows) := by
  have hwritten := lines_written (reportLines headers rows)
  refine ⟨fun splits => ?_, fun s => fieldOf_inert, fun d hd hmem => ?_⟩
  · have hwide : ∀ record ∈ (reportLines headers rows).map (·.map fieldOf), 2 ≤ record.length := by
      intro record hrecord
      obtain ⟨line, hline, rfl⟩ := List.mem_map.mp hrecord
      rw [List.length_map]
      rcases List.mem_cons.mp hline with rfl | hrow
      · rwa [List.length_map]
      · rwa [hrows line hrow]
    have hcomma : (csvMarks splits).separates (unit ',') = true := rfl
    rw [toCsv_eq]
    refine (parse_write (guards_csvMarks splits) hcomma hwritten hwide).trans ?_
    rw [reportLines, List.map_cons, List.map_map]
    rfl
  · rw [toCsv_eq] at hmem
    have hquote : quotedUnit (unit '"') = true := rfl
    obtain ⟨hguarded, hcomma, hcr, hlf⟩ := otherSeparators_quoted hd
    rcases outside_write hquote (by decide) (by decide) (by decide) hwritten d hmem with heq | heq | heq | hfree
    · exact hcomma heq
    · exact hcr heq
    · exact hlf heq
    · exact absurd (hguarded.symm.trans hfree) (by decide)

theorem csv_reads_back_formula :
    (∀ splits, parse (csvMarks splits) (toCsv [units ['A'], units ['B']] [[.text (units ['=', 'A', '1']), .null]]) =
      some ([units ['A'], units ['B']].map (fun header => fieldOf (.text header)) ::
        [[CsvCell.text (units ['=', 'A', '1']), .null]].map (·.map fieldOf))) ∧
    (∀ s, numericLiteral.rmatch s = false → formulaTrigger (fieldOf (.text s)) = false) ∧
    ∀ d ∈ otherSeparators, d ∉ outside (unit '"') false
      (toCsv [units ['A'], units ['B']] [[.text (units ['=', 'A', '1']), .null]]) :=
  csv_reads_back _ _ (by decide) (by simp)

/-- The apostrophe is there, and a signed number goes without. -/
example : toCsv [units ['A'], units ['B']] [[.text (units ['=', 'A']), .text (units ['-', '4'])]] =
    units ['A', ',', 'B', '\r', '\n', '\'', '=', 'A', ',', '-', '4'] := by decide +kernel

end BetterDecision
