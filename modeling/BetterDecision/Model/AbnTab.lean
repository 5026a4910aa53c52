import BetterDecision.Model.ImportParser
import BetterDecision.Model.Tags

/-!
# The ABN AMRO parser

`import_abn_tab`: the text of a `.TAB` file to the rows of a preview.
-/

namespace BetterDecision

/-- `_FIELD_COUNT` -/
def fieldCount : Nat := 8

def sepaTags : List String :=
  ["TRTP", "CSID", "NAME", "MARF", "REMI", "IBAN", "BIC", "EREF", "ULTD", "ORDP", "ID"]

/-! ## Descriptions -/

/-- `_collapse_whitespace` -/
def collapseWhitespace (value : Str) : Str := Str.strip (collapseSpace value)

/-- `"/".join(tokens)` -/
def joinSlash (tokens : List Str) : Str := ['/'].intercalate tokens

/-- What the walk over the tokens has: the tags, and the tag whose value is being collected. -/
structure TagWalk where
  tags : List (Str × Str) := []
  currentKey : Option Str := none
  buffer : List Str := []

/-- The tag that is done is written; the last of two of one name stays. -/
def TagWalk.close (walk : TagWalk) : List (Str × Str) :=
  match walk.currentKey with
  | some key => dictSet walk.tags key (Str.strip (joinSlash walk.buffer))
  | none => walk.tags

def TagWalk.token (walk : TagWalk) (tok : Str) : TagWalk :=
  if String.ofList tok ∈ sepaTags then { tags := walk.close, currentKey := some tok, buffer := [] }
  else { walk with buffer := walk.buffer ++ [tok] }

def walkTags (tokens : List Str) : List (Str × Str) := (tokens.foldl TagWalk.token {}).close

/-- `_MULTISPACE.split`: `run` spaces stand behind `current`. -/
def splitMultispace (current : Str) (run : Nat) : Str → List Str
  | [] => if 2 ≤ run then [current, []] else [current ++ List.replicate run ' ']
  | c :: cs =>
    if c = ' ' then splitMultispace current (run + 1) cs
    else if 2 ≤ run then current :: splitMultispace [c] 0 cs
    else splitMultispace (current ++ List.replicate run ' ' ++ [c]) 0 cs

/-- Whether a text ends in `,PAS`, in letters of either case. -/
def endsInPas (text : Str) : Bool :=
  match text.reverse with
  | s :: a :: p :: comma :: _ =>
    s ∈ ['s', 'S', Char.ofNat 0x17F] ∧ a ∈ ['a', 'A'] ∧ p ∈ ['p', 'P'] ∧ comma = ','
  | _ => false

/-- `_PAS_SUFFIX.sub("", text)` -/
def dropPasSuffix (text : Str) : Str :=
  let body := text.rdropWhile isSpace
  let front := body.rdropWhile decimalStyle.isDigit
  if front.length < body.length ∧ endsInPas front then front.take (front.length - 4) else text

/-- `parse_abn_description`: the description, the counterparty and the tags. -/
def parseAbnDescription (raw : Str) : Str × Option Str × List (Str × RawValue) :=
  let stripped := Str.strip raw
  if "/TRTP/".toList <+: stripped then
    let tags := walkTags ((stripped.splitOn '/').drop 1)
    let name := Str.strip (dictGet tags "NAME" [])
    (if name ≠ [] then name else collapseWhitespace stripped, orNone name, tags.map fun tag => (tag.1, .text tag.2))
  else if "BEA, ".toList <+: stripped ∨ "GEA, ".toList <+: stripped then
    let segments := ((splitMultispace [] 0 stripped).map Str.strip).filter (· ≠ [])
    let kind := if "BEA,".toList <+: stripped then "pos" else "atm"
    let merchant := ((segments[1]?).map fun segment => Str.strip (dropPasSuffix segment)).getD []
    let extracted :=
      [("abn_pos_kind".toList, RawValue.text kind.toList), ("abn_pos_segments".toList, .texts segments)]
    if merchant ≠ [] then (merchant, some merchant, extracted)
    else (collapseWhitespace stripped, none, extracted)
  else (collapseWhitespace stripped, none, [])

/-! ## Lines -/

/-- `content.replace("\r\n", "\n").replace("\r", "\n")` -/
def normalizeNewlines : Str → Str
  | [] => []
  | '\r' :: '\n' :: cs => '\n' :: normalizeNewlines cs
  | c :: cs => (if c = '\r' then '\n' else c) :: normalizeNewlines cs

/-- The lines of the text, the blank ones left out. -/
def tabLines (content : Str) : List Str :=
  ((normalizeNewlines (stripBom content)).splitOn '\n').filter fun line => Str.strip line ≠ []

/-- The sign of a decimal taken off. -/
def Decimal.abs : Decimal → Decimal
  | .finite _ coefficient exponent => .finite false coefficient exponent
  | .infinity _ => .infinity false
  | .nan _ signaling => .nan false signaling

/-- The fields of a line, without the blanks around them. -/
def tabFields (line : Str) : List Str := (line.splitOn '\t').map Str.strip

/-- What the loop does with one line; a line that moves no money has no row. -/
def parseLine (i : Nat) (line : Str) : Except ParseError (Option ParsedRow) :=
  match tabFields line with
  | [accountNumber, currency, bookDate, balanceBefore, balanceAfter, valueDate, amountRaw, descriptionRaw] => do
    let date ← atRow i (parseDateYyyymmdd bookDate)
    let signedAmount ← atRow i (parseAmount amountRaw)
    let value := signedAmount.toRat.getD 0
    let (description, counterparty, extractedTags) := parseAbnDescription descriptionRaw
    if value = 0 then .ok none
    else if description = [] then .error { message := "Empty description", rowNumber := some i }
    else
      .ok (some
        { rowNumber := i, date, description := clipDescription description
          clipped := length_clipDescription description, amount := signedAmount.abs
          type := if value < 0 then .expense else .income, counterparty
          rawData := extractedTags.foldl (fun raw tag => dictSet raw tag.1 tag.2)
            [("account_number".toList, .text accountNumber), ("currency".toList, .text currency),
              ("book_date".toList, .text bookDate), ("balance_before".toList, .text balanceBefore),
              ("balance_after".toList, .text balanceAfter), ("value_date".toList, .text valueDate),
              ("amount".toList, .text amountRaw), ("description".toList, .text descriptionRaw)] })
  | fields =>
    .error
      { message := s!"Expected {fieldCount} tab-separated fields, got {fields.length}", rowNumber := some i }

/-- The loop over the lines that are not blank. -/
def parseLines : Nat → List Str → Except ParseError (List ParsedRow)
  | _, [] => .ok []
  | i, line :: lines =>
    if maxImportRows < i then .error (tooManyRows i)
    else do
      let row ← parseLine i line
      let rows ← parseLines (i + 1) lines
      .ok (row.toList ++ rows)

/-- `parse_tab` -/
def parseTab (content : Str) : Except ParseError (List ParsedRow) := do
  let rows ← parseLines 1 (tabLines content)
  if rows = [] then .error { message := "TAB file contains no transaction rows" } else .ok rows

end BetterDecision
