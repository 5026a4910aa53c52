import Mathlib.Data.List.Basic

/-!
# JSON values and how they are written

A value with its numbers left open, and its text under a `Format`: how a number is
written, how a character of a string is, and what stands between items and after keys.
An object keeps its fields in order.
-/

namespace Json

inductive Value (ν : Type)
  | null
  | bool (b : Bool)
  | num (n : ν)
  | str (s : List Char)
  | arr (rows : List (Value ν))
  | obj (fields : List (List Char × Value ν))

structure Format (ν : Type) where
  number : ν → List Char
  escape : Char → List Char
  itemSep : List Char
  keySep : List Char

variable {ν : Type} (fmt : Format ν)

/-- A string between its quotes. -/
@[grind] def quote (s : List Char) : List Char := '"' :: (s.flatMap fmt.escape ++ ['"'])

mutual

/-- The text of a value. -/
@[grind] def dumps : Value ν → List Char
  | .null => ['n', 'u', 'l', 'l']
  | .bool true => ['t', 'r', 'u', 'e']
  | .bool false => ['f', 'a', 'l', 's', 'e']
  | .num n => fmt.number n
  | .str s => quote fmt s
  | .arr [] => ['[', ']']
  | .arr (row :: rows) => '[' :: (dumps row ++ moreRows rows)
  | .obj [] => ['{', '}']
  | .obj ((key, v) :: fields) => '{' :: (quote fmt key ++ fmt.keySep ++ dumps v ++ moreFields fields)

/-- The rows after the first, and the bracket that closes them. -/
@[grind] def moreRows : List (Value ν) → List Char
  | [] => [']']
  | row :: rows => fmt.itemSep ++ dumps row ++ moreRows rows

/-- The fields after the first, and the brace that closes them. -/
@[grind] def moreFields : List (List Char × Value ν) → List Char
  | [] => ['}']
  | (key, v) :: fields => fmt.itemSep ++ quote fmt key ++ fmt.keySep ++ dumps v ++ moreFields fields

end

/-! ## Characters of a string -/

/-- The UTF-16 code units of a character. -/
@[grind] def utf16 (c : Char) : List Nat :=
  if c.toNat < 0x10000 then [c.toNat]
  else [0xD800 + (c.toNat - 0x10000) / 0x400, 0xDC00 + (c.toNat - 0x10000) % 0x400]

@[grind] def hexDigit (d : Nat) : Char := Char.ofNat (if d < 10 then 48 + d else 87 + d)

/-- A code unit as `\uXXXX`. -/
@[grind] def hexEscape (u : Nat) : List Char :=
  ['\\', 'u', hexDigit (u / 4096 % 16), hexDigit (u / 256 % 16), hexDigit (u / 16 % 16), hexDigit (u % 16)]

/-- The escapes of one letter. -/
@[grind] def shortEscape (c : Char) : Option Char :=
  if c = '"' then some '"'
  else if c = '\\' then some '\\'
  else if c = '\n' then some 'n'
  else if c = '\r' then some 'r'
  else if c = '\t' then some 't'
  else if c = '\x0c' then some 'f'
  else if c = '\x08' then some 'b'
  else none

/-- What `json.dumps` writes for a character, `raw` saying which go as they are. -/
@[grind] def escapeUnless (raw : Char → Bool) (c : Char) : List Char :=
  match shortEscape c with
  | some letter => ['\\', letter]
  | none => if raw c then [c] else (utf16 c).flatMap hexEscape

/-- `ensure_ascii=True`: everything but printable ASCII is escaped. -/
@[grind] def escapeAscii : Char → List Char := escapeUnless (fun c => 0x20 ≤ c.toNat ∧ c.toNat < 0x7F)

/-- `ensure_ascii=False`: only the control characters are. -/
@[grind] def escapeControl : Char → List Char := escapeUnless (fun c => 0x20 ≤ c.toNat)

/-! ## Numbers -/

/-- Past the digits, of which there is one at least. -/
@[grind] def pastDigits : List Char → Option (List Char)
  | [] => none
  | c :: rest => if c.isDigit then some (rest.dropWhile Char.isDigit) else none

/-- Past the whole part: no needless zero in front. -/
@[grind] def pastWhole : List Char → Option (List Char)
  | '0' :: rest => some rest
  | cs => pastDigits cs

@[grind] def pastMinus : List Char → List Char
  | '-' :: rest => rest
  | cs => cs

@[grind] def pastFraction : List Char → Option (List Char)
  | '.' :: rest => pastDigits rest
  | cs => some cs

@[grind] def pastSign : List Char → List Char
  | '+' :: rest => rest
  | '-' :: rest => rest
  | cs => cs

@[grind] def pastExponent : List Char → Option (List Char)
  | 'e' :: rest => pastDigits (pastSign rest)
  | 'E' :: rest => pastDigits (pastSign rest)
  | cs => some cs

/-- The grammar's `number`. -/
@[grind] def isNumber (text : List Char) : Bool :=
  (((pastWhole (pastMinus text)).bind pastFraction).bind pastExponent) = some []

end Json
