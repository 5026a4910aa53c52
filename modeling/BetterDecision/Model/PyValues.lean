import BetterDecision.Model.Decimals

/-!
# Values `json.loads` returns

With the built-in conversions the services apply to them: truth, `int`, `float`, iteration.
A text is a list of code points, among them surrogates without a partner, which `json.loads`
lets through. A float that is a number is the number it stands for.
-/

namespace BetterDecision

/-! ## Texts -/

inductive PyChar
  | char (c : Char)
  /-- A lone surrogate. -/
  | lone (unit : Nat)
  deriving DecidableEq

abbrev PyText := List PyChar

def pyText (text : Str) : PyText := text.map .char

def PyChar.char? : PyChar → Option Char
  | .char c => some c
  | .lone _ => none

/-- The characters of a text without lone surrogates. -/
def PyText.chars (text : PyText) : Option Str := text.mapM PyChar.char?

/-! ## Floats -/

inductive PyFloat
  | finite (value : ℚ)
  | infinity (negative : Bool)
  | nan
  deriving DecidableEq

/-- To the nearest integer, a tie going to the even one. -/
def halfEven (x : ℚ) : Int :=
  let below := ⌊x⌋
  if x - below < 1 / 2 then below
  else if 1 / 2 < x - below then below + 1
  else if below % 2 = 0 then below else below + 1

/-- The nearest double: 53 bits, the last of them not below `2 ^ -1074`. -/
def roundDouble (x : ℚ) : ℚ :=
  if x = 0 then 0
  else
    let last : ℤ := max (Int.log 2 |x| - 52) (-1074)
    halfEven (x / 2 ^ last) * 2 ^ last

/-- From here on the nearest double would be `2 ^ 1024`. -/
def doubleLimit : ℚ := 2 ^ 1024 - 2 ^ 970

def toFloat (x : ℚ) : PyFloat :=
  if doubleLimit ≤ |x| then .infinity (x < 0) else .finite (roundDouble x)

/-! ## Numbers in texts -/

/-- An underscore stands between two digits. -/
def underscoresOk (afterDigit : Bool) : Str → Bool
  | [] => true
  | ['_'] => false
  | '_' :: c :: rest => afterDigit && decimalStyle.isDigit c && underscoresOk true rest
  | c :: rest => underscoresOk (decimalStyle.isDigit c) rest

/-- Longer texts `int` refuses. -/
def maxIntDigits : Nat := 4300

/-- `int(text)`, or `ValueError`. -/
def intOfText (text : Str) : Option Int :=
  let (negative, body) := takeSign (Str.strip text)
  let digits := body.filter (· ≠ '_')
  if digits ≠ [] ∧ underscoresOk false body ∧ digits.all decimalStyle.isDigit ∧ digits.length ≤ maxIntDigits then
    some (if negative then -(decimalStyle.value digits : Int) else decimalStyle.value digits)
  else none

/-- The floats that are not numbers, in letters of either case. -/
def floatName (text : Str) : Option PyFloat :=
  let (negative, name) := takeSign text
  let name := name.map Char.toLower
  if name = ['i', 'n', 'f'] ∨ name = ['i', 'n', 'f', 'i', 'n', 'i', 't', 'y'] then some (.infinity negative)
  else if name = ['n', 'a', 'n'] then some .nan
  else none

/-- `float(text)`, or `ValueError`. -/
def floatOfText (text : Str) : Option PyFloat :=
  let text := Str.strip text
  if underscoresOk false text then
    match decimalStyle.read (text.filter (· ≠ '_')) with
    | some (negative, coefficient, exponent) => some (toFloat (numeralValue negative coefficient exponent))
    | none => floatName text
  else none

/-! ## Values -/

inductive PyJson
  | none
  | bool (b : Bool)
  | int (n : Int)
  | float (f : PyFloat)
  | str (text : PyText)
  | list (rows : List PyJson)
  | dict (fields : List (PyText × PyJson))

inductive PyError
  | type
  | value
  | overflow
  deriving DecidableEq

namespace PyJson

/-- `bool(value)`. -/
def truth : PyJson → Bool
  | .none => false
  | .bool b => b
  | .int n => n ≠ 0
  | .float f => f ≠ .finite 0
  | .str text => text ≠ []
  | .list rows => !rows.isEmpty
  | .dict fields => !fields.isEmpty

/-- `value.get(key)`. -/
def get (fields : List (PyText × PyJson)) (key : PyText) : PyJson := (fields.lookup key).getD .none

/-- `for row in value or []`. -/
def rowsOf (v : PyJson) : Except PyError (List PyJson) :=
  if v.truth then
    match v with
    | .list rows => .ok rows
    | .dict fields => .ok (fields.map (fun f => .str f.1))
    | .str text => .ok (text.map (fun c => .str [c]))
    | _ => .error .type
  else .ok []

/-- `int(value)`. -/
def toInt : PyJson → Except PyError Int
  | .bool b => .ok (if b then 1 else 0)
  | .int n => .ok n
  -- towards zero
  | .float (.finite x) => .ok (if 0 ≤ x then ⌊x⌋ else ⌈x⌉)
  | .float (.infinity _) => .error .overflow
  | .float .nan => .error .value
  | .str text =>
    match (PyText.chars text).bind intOfText with
    | some n => .ok n
    | Option.none => .error .value
  | _ => .error .type

/-- `float(value)`. An integer past the largest double is refused, a text is not. -/
def toFloat : PyJson → Except PyError PyFloat
  | .bool b => .ok (.finite (if b then 1 else 0))
  | .int n => if doubleLimit ≤ |(n : ℚ)| then .error .overflow else .ok (.finite (roundDouble n))
  | .float f => .ok f
  | .str text =>
    match (PyText.chars text).bind floatOfText with
    | some f => .ok f
    | Option.none => .error .value
  | _ => .error .type

/-- `str(value or "")[:n]`, the text of what is no text being left open. -/
def shown (repr : PyJson → PyText) (n : Nat) (v : PyJson) : PyText :=
  if v.truth then
    match v with
    | .str text => text.take n
    | _ => (repr v).take n
  else []

end PyJson

end BetterDecision
