import Mathlib.Computability.RegularExpressions
import BetterDecision.Lib.QuotedRecords
import BetterDecision.Model.JsText

/-!
# Reports as comma-separated values

`lib/reports/csv.ts`: the text that a browser downloads of the rows a widget shows.
-/

namespace BetterDecision

/-! ## Numbers as texts -/

/-- A number as `String` sees it: the shortest digits that give it back, and how many of
them stand in front of the point. -/
inductive JsNumber
  | nan
  | infinity (negative : Bool)
  | zero
  | finite (negative : Bool) (digits : Nat) (point : Int)

/-- The digits in front of an exponent, if they are many or few before the point. -/
def decimalText (digits : List Char) (point : Int) : List Char :=
  if digits.length ≤ point ∧ point ≤ 21 then digits ++ List.replicate (point - digits.length).toNat '0'
  else if 0 < point ∧ point ≤ 21 then digits.take point.toNat ++ '.' :: digits.drop point.toNat
  else if -6 < point ∧ point ≤ 0 then '0' :: '.' :: (List.replicate (-point).toNat '0' ++ digits)
  else
    let exponent := 'e' :: (if 0 < point then '+' else '-') :: Nat.toDigits 10 (point - 1).natAbs
    match digits with
    | first :: second :: rest => first :: '.' :: second :: (rest ++ exponent)
    | _ => digits ++ exponent

/-- `String(n)`. -/
def JsNumber.text : JsNumber → JsString
  | .nan => units ['N', 'a', 'N']
  | .infinity negative => units ((if negative then ['-'] else []) ++ ['I', 'n', 'f', 'i', 'n', 'i', 't', 'y'])
  | .zero => units ['0']
  | .finite negative digits point =>
    units ((if negative then ['-'] else []) ++ decimalText (Nat.toDigits 10 digits) point)

/-! ## Cells -/

inductive CsvCell
  | null
  | undefined
  | number (n : JsNumber)
  | text (s : JsString)

/-- `/^[=+\-@\t\r\n]/`. -/
def formulaTrigger (s : JsString) : Bool :=
  s.head?.any (units ['=', '+', '-', '@', '\t', '\r', '\n']).contains

def anyUnit (us : JsString) : RegularExpression UInt16 := us.foldr (fun u r => .char u + r) 0

def digitUnit : RegularExpression UInt16 := anyUnit (units ['0', '1', '2', '3', '4', '5', '6', '7', '8', '9'])

def signUnit : RegularExpression UInt16 := anyUnit (units ['+', '-'])

/-- `/^[+-]?(\d+\.?\d*|\.\d+)([eE][+-]?\d+)?$/`. -/
def numericLiteral : RegularExpression UInt16 :=
  (1 + signUnit) *
    (digitUnit * digitUnit.star * (1 + .char (unit '.')) * digitUnit.star +
      .char (unit '.') * digitUnit * digitUnit.star) *
    (1 + anyUnit (units ['e', 'E']) * (1 + signUnit) * digitUnit * digitUnit.star)

/-- `/[",;|\t\r\n]/`. -/
def quotedUnit (u : UInt16) : Bool := (units ['"', ',', ';', '|', '\t', '\r', '\n']).contains u

def quoteField (s : JsString) : JsString :=
  if s.any quotedUnit then unit '"' :: (QuotedRecords.doubled (unit '"') s ++ [unit '"']) else s

def escapeField : CsvCell → JsString
  | .null => []
  | .undefined => []
  | .number n => quoteField n.text
  | .text s =>
    quoteField (if formulaTrigger s && !numericLiteral.rmatch s then unit '\'' :: s else s)

/-- The header line and the rows; no line break behind the last of them. -/
def toCsv (headers : List JsString) (rows : List (List CsvCell)) : JsString :=
  List.intercalate (units ['\r', '\n'])
    (List.intercalate (units [',']) (headers.map fun header => escapeField (.text header)) ::
      rows.map fun row => List.intercalate (units [',']) (row.map escapeField))

end BetterDecision
