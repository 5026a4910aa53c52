import Mathlib.Data.List.Basic

/-!
# Delimited text

A reader of records of fields that a delimiter keeps apart, in the dialect of spreadsheets: a field
may stand between double quotes, which may then hold delimiters and ends of lines, and a double
quote written twice. The reader takes the text line by line, and the end of every line as a step of
its own; a record may go over several lines.
-/

namespace BetterDecision

inductive CsvState
  | startRecord
  | startField
  | inField
  | inQuotedField
  | quoteInQuotedField
  | eatCrnl
  deriving DecidableEq, Repr

/-- What is read of a record: its fields, and the field being read. -/
structure CsvReader where
  state : CsvState := .startRecord
  field : List Char := []
  fields : List (List Char) := []
  deriving Repr

namespace CsvReader

@[grind] def fieldLimit : Nat := 131072

@[grind] def newlineError : String :=
  "new-line character seen in unquoted field - do you need to open the file with newline=''?"

@[grind] def addChar (reader : CsvReader) (state : CsvState) (c : Char) : Except String CsvReader :=
  if fieldLimit ≤ reader.field.length then .error s!"field larger than field limit ({fieldLimit})"
  else .ok { reader with state, field := reader.field ++ [c] }

@[grind] def saveField (reader : CsvReader) (state : CsvState) : CsvReader :=
  { state, field := [], fields := reader.fields ++ [reader.field] }

/-- A character at the start of a field, in it, or behind a quoted one: `others` is what a character of
no meaning does. -/
@[grind] def fieldChar (delimiter : Char) (reader : CsvReader) (others : Except String CsvReader) : Option Char →
    Except String CsvReader
  | none => .ok (reader.saveField .startRecord)
  | some c =>
    if c = '\n' ∨ c = '\r' then .ok (reader.saveField .eatCrnl)
    else if c = delimiter then .ok (reader.saveField .startField)
    else others

@[grind] def startFieldChar (delimiter : Char) (reader : CsvReader) : Option Char → Except String CsvReader
  | some '"' => .ok { reader with state := .inQuotedField }
  | c => fieldChar delimiter reader (reader.addChar .inField (c.getD ' ')) c

/-- One character, or the end of a line. -/
@[grind] def step (delimiter : Char) (reader : CsvReader) (c : Option Char) : Except String CsvReader :=
  match reader.state with
  | .startRecord =>
    -- a line with nothing on it is a record without fields
    if c = none then .ok reader
    else if c = some '\n' ∨ c = some '\r' then .ok { reader with state := .eatCrnl }
    else startFieldChar delimiter reader c
  | .startField => startFieldChar delimiter reader c
  | .inField => fieldChar delimiter reader (reader.addChar .inField (c.getD ' ')) c
  | .inQuotedField =>
    match c with
    | none => .ok reader
    | some '"' => .ok { reader with state := .quoteInQuotedField }
    | some c => reader.addChar .inQuotedField c
  | .quoteInQuotedField =>
    if c = some '"' then reader.addChar .inQuotedField '"'
    else fieldChar delimiter reader (reader.addChar .inField (c.getD ' ')) c
  | .eatCrnl =>
    match c with
    | none => .ok { reader with state := .startRecord }
    | some c => if c = '\n' ∨ c = '\r' then .ok reader else .error newlineError

@[grind] def readLine (delimiter : Char) (reader : CsvReader) (line : List Char) : Except String CsvReader :=
  (line.map some ++ [none]).foldlM (step delimiter) reader

/-- The records of the lines, and the error that ends them if there is one. -/
@[grind] def records (delimiter : Char) : CsvReader → List (List Char) → List (List (List Char)) × Option String
  | reader, [] =>
    -- an open quote is closed by the end of the text
    if reader.field ≠ [] ∨ reader.state = .inQuotedField then ([reader.fields ++ [reader.field]], none) else ([], none)
  | reader, line :: lines =>
    match readLine delimiter reader line with
    | .error message => ([], some message)
    | .ok reader =>
      if reader.state = .startRecord then
        let (rest, failure) := records delimiter {} lines
        (reader.fields :: rest, failure)
      else records delimiter reader lines

end CsvReader

/-- The lines of a text, each with the newline that ends it. -/
@[grind] def keepLines : List Char → List (List Char)
  | [] => []
  | c :: cs =>
    if c = '\n' then [c] :: keepLines cs
    else match keepLines cs with
      | [] => [[c]]
      | line :: lines => (c :: line) :: lines

/-- The records of a text. -/
@[grind] def csvRecords (delimiter : Char) (text : List Char) : List (List (List Char)) × Option String :=
  CsvReader.records delimiter {} (keepLines text)

end BetterDecision
