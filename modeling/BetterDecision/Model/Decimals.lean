import BetterDecision.Lib.Numerals
import BetterDecision.Model.Ledger
import Mathlib.Data.Nat.Log

/-!
# Decimals and money

The text of a `Decimal`, as its constructor reads it, and `Money` of `schemas/common`, the decimals
a money column can hold. A text is the list of its characters.
-/

namespace BetterDecision

abbrev Str := List Char

/-! ## Characters -/

/-- Where the decimal digits of each script begin. -/
def decimalZeros : List Nat :=
  [0x30, 0x660, 0x6F0, 0x7C0, 0x966, 0x9E6, 0xA66, 0xAE6, 0xB66, 0xBE6, 0xC66, 0xCE6, 0xD66, 0xDE6, 0xE50, 0xED0,
    0xF20, 0x1040, 0x1090, 0x17E0, 0x1810, 0x1946, 0x19D0, 0x1A80, 0x1A90, 0x1B50, 0x1BB0, 0x1C40, 0x1C50, 0xA620,
    0xA8D0, 0xA900, 0xA9D0, 0xA9F0, 0xAA50, 0xABF0, 0xFF10, 0x104A0, 0x10D30, 0x10D40, 0x11066, 0x110F0, 0x11136,
    0x111D0, 0x112F0, 0x11450, 0x114D0, 0x11650, 0x116C0, 0x116D0, 0x116DA, 0x11730, 0x118E0, 0x11950, 0x11BF0,
    0x11C50, 0x11D50, 0x11DA0, 0x11F50, 0x16130, 0x16A60, 0x16AC0, 0x16B50, 0x16D70, 0x1CCF0, 0x1D7CE, 0x1D7D8,
    0x1D7E2, 0x1D7EC, 0x1D7F6, 0x1E140, 0x1E2F0, 0x1E4F0, 0x1E5F0, 0x1E950, 0x1FBF0]

/-- `str.isdecimal`, with the digit. -/
def decimalDigit? (c : Char) : Option Nat :=
  (decimalZeros.find? fun start => start ≤ c.toNat ∧ c.toNat ≤ start + 9).map fun start => c.toNat - start

/-- `str.strip()`. -/
def Str.strip (text : Str) : Str := trim isSpace text

/-- `str.strip(mark)`, of one mark. -/
def Str.stripMark (mark : Char) (text : Str) : Str := trim (· == mark) text

/-! ## Decimals -/

/-- The digits and the point the constructor of a `Decimal` takes. -/
def decimalStyle : NumeralStyle where
  digit? := decimalDigit?
  point := '.'
  digit_mark := by simp [decimalDigit?, decimalZeros]
  point_mark := by decide

inductive Decimal
  | finite (negative : Bool) (coefficient : Nat) (exponent : Int)
  | infinity (negative : Bool)
  | nan (negative signaling : Bool)
  deriving DecidableEq, Repr

/-- The number a finite decimal stands for. -/
def Decimal.toRat : Decimal → Option ℚ
  | .finite negative coefficient exponent => some (numeralValue negative coefficient exponent)
  | .infinity _ => none
  | .nan _ _ => none

/-- The exponents a `Decimal` can have: from `MIN_ETINY`, and to `MAX_EMAX` at the first digit. -/
def representable (coefficient : Nat) (exponent : Int) : Bool :=
  -1999999999999999997 ≤ exponent ∧ exponent + Nat.log 10 coefficient ≤ 999999999999999999

/-- The decimals that are not numbers, in letters of either case. -/
def specialOf (text : Str) : Option Decimal :=
  let (negative, name) := takeSign text
  let name := name.map Char.toLower
  if name = "inf".toList ∨ name = "infinity".toList then some (.infinity negative)
  else if "nan".toList <+: name ∧ (name.drop 3).all decimalStyle.isDigit then some (.nan negative false)
  else if "snan".toList <+: name ∧ (name.drop 4).all decimalStyle.isDigit then some (.nan negative true)
  else none

/-- `Decimal(text)`, or `InvalidOperation`: blanks around the text and underscores in it are taken
out, and what is left is read. -/
def decimalOf (text : Str) : Option Decimal :=
  let text := (Str.strip text).filter (· ≠ '_')
  match decimalStyle.read text with
  | some (negative, coefficient, exponent) =>
    if representable coefficient exponent then some (.finite negative coefficient exponent) else none
  | none => specialOf text

/-! ## Money -/

def moneyMaxDigits : Nat := 12

def moneyDecimalPlaces : Nat := 2

/-- `Money`: at most `MONEY_DECIMAL_PLACES` digits behind the point, zeros at the end aside, and in
front of it at most what is left of `MONEY_MAX_DIGITS`. -/
def FitsMoney (x : ℚ) : Prop :=
  (x * 10 ^ moneyDecimalPlaces).den = 1 ∧ |x| < 10 ^ (moneyMaxDigits - moneyDecimalPlaces)

instance (x : ℚ) : Decidable (FitsMoney x) := inferInstanceAs (Decidable (_ ∧ _))

/-- `money_or_none`. -/
def moneyOrNone (value : Decimal) : Option Decimal :=
  match value.toRat with
  | some x => if FitsMoney x then some value else none
  | none => none

end BetterDecision
