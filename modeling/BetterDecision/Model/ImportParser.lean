import BetterDecision.Lib.Csv
import BetterDecision.Model.Dates
import BetterDecision.Model.Decimals

/-!
# The bank file parsers

`import_parser`: the text of a bank's CSV file to the rows of a preview. An exception that is not a
`ParseError` leaves the parser as it is: only a `ParseError` is answered for by the route.
-/

namespace BetterDecision

open Calendar

/-- `MAX_ROWS` -/
def maxImportRows : Nat := 2000

def maxDescriptionLength : Nat := 255

structure ParseError where
  message : String
  rowNumber : Option Nat := none
  deriving DecidableEq, Repr

inductive Raised
  | parseError (error : ParseError)
  | csvError (message : String)
  | attributeError (message : String)
  deriving DecidableEq, Repr

/-- A value of `raw_data`. -/
inductive RawValue
  | text (value : Str)
  | texts (values : List Str)
  deriving DecidableEq, Repr

/-- A row as far as the text parsers fill it; `__post_init__` clips its description. -/
structure ParsedRow where
  rowNumber : Nat
  date : Int
  description : Str
  clipped : description.length ≤ maxDescriptionLength
  amount : Decimal
  type : TransactionType
  counterparty : Option Str := none
  transactionType : Option Str := none
  rawData : List (Str × RawValue) := []
  deriving DecidableEq

def clipDescription (description : Str) : Str := description.take maxDescriptionLength

@[simp] theorem length_clipDescription (description : Str) : (clipDescription description).length ≤ maxDescriptionLength :=
  List.length_take_le _ _

/-- `value or None` -/
def orNone (value : Str) : Option Str := if value = [] then none else some value

/-! ## Dictionaries -/

/-- `dict[key] = value`: a new key goes to the end. -/
def dictSet {α : Type} (dict : List (Str × α)) (key : Str) (value : α) : List (Str × α) :=
  if dict.any (·.1 == key) then dict.map fun entry => if entry.1 = key then (key, value) else entry
  else dict ++ [(key, value)]

/-- `dict.get(key, default)` -/
def dictGet {α : Type} (dict : List (Str × α)) (key : String) (default : α) : α := (dict.lookup key.toList).getD default

/-! ## Amounts -/

/-- `check_amount_in_range` -/
def checkAmountInRange (amount : Decimal) : Except ParseError Decimal :=
  match moneyOrNone amount with
  | some bounded => .ok bounded
  | none => .error { message := "Amount out of range (at most 10 digits before and 2 after the decimal point)" }

/-- `_parse_amount` -/
def parseAmount (value : Str) : Except ParseError Decimal :=
  let cleaned := Str.stripMark '"' (Str.strip value)
  -- European format: period = thousands, comma = decimal
  let cleaned := (cleaned.filter (· ≠ '.')).map (replaceChar ',' '.')
  match decimalOf cleaned with
  | some parsed => checkAmountInRange parsed
  | none => .error { message := "Cannot parse amount: '" ++ String.ofList value ++ "'" }

/-! ## Dates -/

/-- The digits that are not decimal ones, for `str.isdigit`, from the first to the last of each run. -/
def otherDigits : List (Nat × Nat) :=
  [(0xB2, 0xB3), (0xB9, 0xB9), (0x1369, 0x1371), (0x19DA, 0x19DA), (0x2070, 0x2070), (0x2074, 0x2079),
    (0x2080, 0x2089), (0x2460, 0x2468), (0x2474, 0x247C), (0x2488, 0x2490), (0x24EA, 0x24EA), (0x24F5, 0x24FD),
    (0x24FF, 0x24FF), (0x2776, 0x277E), (0x2780, 0x2788), (0x278A, 0x2792), (0x10A40, 0x10A43), (0x10E60, 0x10E68),
    (0x11052, 0x1105A), (0x1F100, 0x1F10A)]

/-- `str.isdigit` of one character -/
def isDigitChar (c : Char) : Bool :=
  (decimalDigit? c).isSome || otherDigits.any fun run => run.1 ≤ c.toNat ∧ c.toNat ≤ run.2

/-- `int` of digits -/
def intOf (digits : Str) : Option Nat := if digits.all decimalStyle.isDigit then some (decimalStyle.value digits) else none

/-- `date(year, month, day)` -/
def dateOf (year month day : Nat) : Option Int :=
  let k : Int := 12 * year + (month - 1)
  if 1 ≤ year ∧ year ≤ 9999 ∧ 1 ≤ month ∧ month ≤ 12 ∧ 1 ≤ day ∧ day ≤ monthLength k then some (monthStart k + day)
  else none

/-- `_parse_date_yyyymmdd` -/
def parseDateYyyymmdd (value : Str) : Except ParseError Int :=
  let cleaned := Str.stripMark '"' (Str.strip value)
  if cleaned.length ≠ 8 ∨ ¬ cleaned.all isDigitChar then
    .error { message := "Cannot parse date: '" ++ String.ofList value ++ "'" }
  else
    let parsed := do
      dateOf (← intOf (cleaned.take 4)) (← intOf ((cleaned.drop 4).take 2)) (← intOf ((cleaned.drop 6).take 2))
    match parsed with
    | some date => .ok date
    | none => .error { message := "Invalid date: '" ++ String.ofList value ++ "'" }

/-! ## CSV -/

/-- `_strip_bom` -/
def stripBom (content : Str) : Str := content.dropWhile (· == Char.ofNat 0xFEFF)

def detectDelimiter (content : Str) : Char :=
  if ';' ∈ content.takeWhile (· ≠ '\n') then ';' else ','

/-- `required_columns`, in order -/
def requiredColumns : List String := ["Amount (EUR)", "Date", "Debit/credit", "Name / Description"]

/-- A name or a value of a row, without the blanks and the quotes around it. -/
def cleanCell (cell : Str) : Str := Str.stripMark '"' (Str.strip cell)

/-- A row of `csv.DictReader`: a missing field is `None`, or here empty. -/
def dictRow (fieldnames record : List Str) : List (Str × Str) :=
  let row := (fieldnames.zip record).foldl (fun row cell => dictSet row cell.1 cell.2) []
  (fieldnames.drop record.length).foldl (fun row name => dictSet row name []) row

/-- The row with its names and values cleaned. -/
def normalizeRow (row : List (Str × Str)) : List (Str × Str) :=
  row.foldl (fun row cell => dictSet row (cleanCell cell.1) (cleanCell cell.2)) []

/-- `raise ParseError(str(e), row_number=i)` -/
def atRow {α : Type} (i : Nat) : Except ParseError α → Except ParseError α
  | .ok value => .ok value
  | .error e => .error { e with rowNumber := some i }

/-- What the loop does with one row. -/
def parseRow (i : Nat) (row : List (Str × Str)) : Except ParseError ParsedRow := do
  let direction := dictGet row "Debit/credit" []
  let date ← atRow i (parseDateYyyymmdd (dictGet row "Date" []))
  let amount ← atRow i (parseAmount (dictGet row "Amount (EUR)" ['0']))
  let description := Str.strip (dictGet row "Name / Description" [])
  if description = [] then .error { message := "Empty description", rowNumber := some i }
  else
    .ok
      { rowNumber := i, date, description := clipDescription description
        clipped := length_clipDescription description, amount
        type := if direction = "Debit".toList then .expense else .income
        counterparty := orNone (Str.strip (dictGet row "Counterparty" []))
        transactionType := orNone (Str.strip (dictGet row "Transaction type" []))
        rawData := row.map fun cell => (cell.1, .text cell.2) }

/-- `File exceeds the maximum of … transactions` -/
def tooManyRows (i : Nat) : ParseError :=
  { message := s!"File exceeds the maximum of {maxImportRows} transactions", rowNumber := some i }

/-- The loop over the rows, and how the reader ends. -/
def parseRecords (fieldnames : List Str) (failure : Option String) : Nat → List (List Str) →
    Except Raised (List ParsedRow)
  | _, [] =>
    match failure with
    | some message => .error (.csvError message)
    | none => .ok []
  | i, record :: records =>
    -- the reader passes over a record without fields
    if record = [] then parseRecords fieldnames failure i records
    else if maxImportRows < i then .error (.parseError (tooManyRows i))
    -- fields past the header's stand under the name `None`
    else if fieldnames.length < record.length then
      .error (.attributeError "'NoneType' object has no attribute 'strip'")
    else
      match parseRow i (normalizeRow (dictRow fieldnames record)) with
      | .error e => .error (.parseError e)
      | .ok row =>
        match parseRecords fieldnames failure (i + 1) records with
        | .error e => .error e
        | .ok rows => .ok (row :: rows)

private theorem cells_lawful : LawfulBEq Str := inferInstance

attribute [local instance] cells_lawful in
/-- `parse_csv` -/
def parseCsv (content : Str) : Except Raised (List ParsedRow) :=
  let content := stripBom content
  match csvRecords (detectDelimiter content) content with
  | ([], some message) => .error (.csvError message)
  | ([], none) => .error (.parseError { message := "CSV file is empty or has no header row" })
  | (fieldnames :: records, failure) =>
    let missing := requiredColumns.filter fun column => column.toList ∉ fieldnames.map cleanCell
    if missing ≠ [] then .error (.parseError { message := "Missing required columns: " ++ ", ".intercalate missing })
    else
      match parseRecords fieldnames failure 1 records with
      | .error e => .error e
      | .ok [] => .error (.parseError { message := "CSV file contains no transaction rows" })
      | .ok rows => .ok rows

/-! ## Confirming -/

/-- What `ImportConfirmRow` asks of a row that is echoed back. -/
structure AcceptedByConfirm (row : ParsedRow) : Prop where
  description : row.description.length ≤ maxDescriptionLength
  amount : ∃ x ∈ row.amount.toRat, FitsMoney x ∧ 0 < x
  type : row.type = .income ∨ row.type = .expense

/-- What `TransactionCreate` asks of it on top of that: `description_not_empty`. -/
structure AcceptedByCreate (row : ParsedRow) : Prop extends AcceptedByConfirm row where
  notEmpty : Str.strip row.description ≠ []

end BetterDecision
