import BetterDecision.Lib.Patterns
import BetterDecision.Model.Decimals
import BetterDecision.Model.PyValues

/-!
# Amounts in text

`maskMoneyText` (`lib/format.ts`) takes the amounts out of texts the server wrote, while the
balances are hidden. It finds them by one regular expression; below it are the writers of the
amounts it is for.
-/

namespace BetterDecision

open Patterns Pattern

/-! ## Hiding -/

/-- `BALANCE_MASK`. -/
def balanceMask : Str := List.replicate 5 '•'

/-- `-> `. -/
def arrow : Str := ['-', '>', ' ']

def minusSign : Pattern := .many (· == '-') 0 (some 1)

/-- `-?\d+(?:\.\d+)?`, behind the arrow. -/
def arrowAmount : Pattern :=
  .seq minusSign (.seq (.many Char.isDigit 1 none)
    (.alt (.seq (.one (· == '.')) (.many Char.isDigit 1 none)) .empty))

/-- `-?\d[\d,]*\.\d{2}`. -/
def decimalAmount : Pattern :=
  .seq minusSign (.seq (.one Char.isDigit) (.seq (.many (fun c => c.isDigit || c == ',') 0 none)
    (.seq (.one (· == '.')) (.many Char.isDigit 2 (some 2)))))

/-- `[\d%]|\.\d`, which may not follow. -/
def goesOn : Pattern :=
  .alt (.one fun c => c.isDigit || c == '%') (.seq (.one (· == '.')) (.one Char.isDigit))

/-- `[^\d.]`. -/
def leadsAmount (c : Char) : Bool := !(c.isDigit || c == '.')

def decimalRests (cs : Str) : List Str := (decimalAmount.rests cs).filter fun rest => (goesOn.behind rest).isNone

/-- The matches of `MONEY_IN_TEXT` at a place: what is kept of each, and the text behind it.
`start` is whether it is the start of the text. -/
def moneyMatches (start : Bool) (cs : Str) : List (Str × Str) :=
  (if arrow <+: cs then (arrowAmount.rests (cs.drop 3)).map (arrow, ·) else []) ++
    ((if start then (decimalRests cs).map ([], ·) else []) ++
      match cs with
      | [] => []
      | c :: cs => if leadsAmount c then (decimalRests cs).map ([c], ·) else [])

/-- `replace` from a place on, so many characters being matched already. -/
def maskFrom (start : Bool) (matched : Nat) : Str → Str
  | [] => []
  | c :: cs =>
    match matched with
    | more + 1 => maskFrom false more cs
    | 0 =>
      match (moneyMatches start (c :: cs)).head? with
      | some (kept, rest) => kept ++ balanceMask ++ maskFrom false (cs.length - rest.length) cs
      | none => c :: maskFrom false 0 cs

/-- `maskMoneyText`. -/
def maskMoneyText (hidden : Bool) (text : Str) : Str :=
  if hidden then maskFrom true 0 text else text

/-! ## Writing -/

def signText (negative : Bool) : Str := if negative then ['-'] else []

/-- `_format_money`: `f"{amount:,.2f}"`, of a finite decimal. -/
def formatMoney (negative : Bool) (coefficient : Nat) (exponent : Int) : Str :=
  let cents := (halfEven (coefficient * 10 ^ (exponent + 2))).toNat
  signText negative ++ NumeralStyle.writeGrouped ',' (cents / 100) ++
    ['.', Nat.digitChar (cents / 10 % 10), Nat.digitChar (cents % 10)]

/-- `str` of a finite decimal. -/
def decimalStr (negative : Bool) (coefficient : Nat) (exponent : Int) : Str :=
  let digits := Nat.toDigits 10 coefficient
  let leftDigits := exponent + digits.length
  -- a power of ten is written with an exponent, and so is what is very small
  let dotPlace := if exponent ≤ 0 ∧ -6 < leftDigits then leftDigits else 1
  let intPart :=
    if dotPlace ≤ 0 then ['0']
    else if digits.length ≤ dotPlace then digits ++ List.replicate (dotPlace - digits.length).toNat '0'
    else digits.take dotPlace.toNat
  let fracPart :=
    if dotPlace ≤ 0 then '.' :: (List.replicate (-dotPlace).toNat '0' ++ digits)
    else if digits.length ≤ dotPlace then []
    else '.' :: digits.drop dotPlace.toNat
  let power := leftDigits - dotPlace
  let exponentPart :=
    if power = 0 then [] else 'E' :: (if power < 0 then '-' else '+') :: Nat.toDigits 10 power.natAbs
  signText negative ++ intPart ++ fracPart ++ exponentPart

/-- A decimal `BalanceAdjustmentRequest` accepts. -/
structure TargetBalance where
  negative : Bool
  coefficient : Nat
  exponent : Int
  fits : FitsMoney (numeralValue negative coefficient exponent)

/-- The shapes in which an amount comes. -/
inductive MoneyShape
  /-- As in the body of a notification. -/
  | grouped (negative : Bool) (coefficient : Nat) (exponent : Int)
  /-- `str` of what is kept with two decimals, or `f"{amount:.2f}"`. -/
  | plain (negative : Bool) (cents : Nat)
  /-- `f"{old_balance} -> {target_balance}"`. -/
  | moved (negative : Bool) (cents : Nat) (target : TargetBalance)

def MoneyShape.text : MoneyShape → Str
  | .grouped negative coefficient exponent => formatMoney negative coefficient exponent
  | .plain negative cents => decimalStr negative cents (-2)
  | .moved negative cents target =>
    decimalStr negative cents (-2) ++ ' ' :: arrow ++ decimalStr target.negative target.coefficient target.exponent

/-- Amounts, each with the words behind it. -/
def writtenText (words : Str) : List (MoneyShape × Str) → Str
  | [] => words
  | (amount, next) :: rest => words ++ amount.text ++ writtenText next rest

end BetterDecision
