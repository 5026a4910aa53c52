import Mathlib.Data.List.MinMax
import Mathlib.Data.Nat.Digits.Defs
import BetterDecision.Lib.JsonSize

/-!
# Tool results

`_cap_result` (`services/agent_chat.py`): what the assistant's model is given of a tool's
result. A result too large for one message loses rows from the end of its longest list,
and says so.
-/

namespace BetterDecision

open Json

/-! ## The text of a result -/

/-- A number of a result: an integer, or a float under the text `repr` gives it. -/
inductive ToolNumber
  | int (n : Int)
  | float (text : List Char) (written : text ≠ [])

def natText (n : Nat) : List Char :=
  if n = 0 then ['0'] else ((Nat.digits 10 n).map Nat.digitChar).reverse

def intText : Int → List Char
  | .ofNat n => natText n
  | .negSucc n => '-' :: natText (n + 1)

def ToolNumber.text : ToolNumber → List Char
  | .int n => intText n
  | .float text _ => text

abbrev ToolValue := Value ToolNumber

/-- `json.dumps(…, ensure_ascii=False)`. -/
def toolFormat : Format ToolNumber where
  number := ToolNumber.text
  escape := escapeControl
  itemSep := [',', ' ']
  keySep := [':', ' ']

abbrev FieldName := List Char

abbrev ToolFields := List (FieldName × ToolValue)

/-- `size` of `_cap_result`. -/
def resultSize (v : ToolValue) : Nat := size toolFormat v

/-- `MAX_TOOL_RESULT_CHARS`. -/
def maxToolResultChars : Nat := 40000

/-! ## Field names -/

def itemsName : FieldName := ['i', 't', 'e', 'm', 's']

def offsetName : FieldName := ['o', 'f', 'f', 's', 'e', 't']

def nextOffsetName : FieldName := ['n', 'e', 'x', 't', '_', 'o', 'f', 'f', 's', 'e', 't']

def truncatedName : FieldName := ['t', 'r', 'u', 'n', 'c', 'a', 't', 'e', 'd']

/-- `{"error": "result_too_large"}`. -/
def resultTooLarge : ToolValue :=
  .obj [(['e', 'r', 'r', 'o', 'r'],
    .str ['r', 'e', 's', 'u', 'l', 't', '_', 't', 'o', 'o', '_', 'l', 'a', 'r', 'g', 'e'])]

/-! ## What is cut -/

def listFields (fields : ToolFields) : List (FieldName × List ToolValue) :=
  fields.filterMap fun f => match f.2 with
    | .arr rows => some (f.1, rows)
    | _ => none

/-- `max(lists, key=lambda k: size(lists[k]))`: the first of the longest. -/
def longestList (fields : ToolFields) : Option (FieldName × List ToolValue) :=
  (listFields fields).argmax (fun l => resultSize (.arr l.2))

/-- The result's `offset` where it is an integer; a boolean is none. -/
def pageOffset (fields : ToolFields) : Option Int :=
  match fields.lookup offsetName with
  | some (.num (.int o)) => some o
  | _ => none

/-- `{"key": key, "shown": n, "of": len(rows)}`. -/
def truncatedMark (key : FieldName) (n count : Nat) : ToolValue :=
  .obj [(['k', 'e', 'y'], .str key), (['s', 'h', 'o', 'w', 'n'], .num (.int n)), (['o', 'f'], .num (.int count))]

def markNextOffset (offset : Option Int) (n : Nat) (out : ToolFields) : ToolFields :=
  match offset with
  | some o => setField nextOffsetName (.num (.int (o + n))) out
  | none => out

/-- `build` of `_cap_result`. -/
def buildFields (fields : ToolFields) (key : FieldName) (count n : Nat) (kept : List ToolValue) : ToolFields :=
  markNextOffset (pageOffset fields) n
    (setField truncatedName (truncatedMark key n count) (setField key (.arr kept) fields))

/-- The loop over the rows' sizes, from `n` rows that use `used`. -/
def countRows (room : Int) (n used : Nat) : List Nat → Nat
  | [] => n
  | rowSize :: sizes =>
    let used := used + (rowSize + if n = 0 then 0 else 2)
    if room < used then n else countRows room (n + 1) used sizes

def capList (fields : ToolFields) (key : FieldName) (rows : List ToolValue) : ToolValue :=
  let room : Int := maxToolResultChars - resultSize (.obj (buildFields fields key rows.length rows.length []))
  let n := countRows room 0 0 (rows.map resultSize)
  let out := .obj (buildFields fields key rows.length n (rows.take n))
  if resultSize out ≤ maxToolResultChars then out else resultTooLarge

/-- The fields of a result; a list goes under `items`. -/
def resultFields : ToolValue → ToolFields
  | .arr rows => [(itemsName, .arr rows)]
  | .obj fields => fields
  | _ => []

/-- `_cap_result`. -/
def capResult (result : ToolValue) : ToolValue :=
  if resultSize result ≤ maxToolResultChars then result
  else
    match longestList (resultFields result) with
    | some (key, rows) => capList (resultFields result) key rows
    | none => resultTooLarge

/-- What a tool returns: no two fields of an object have the same name. -/
structure ToolResult where
  value : ToolValue
  keyed : Keyed Prod.fst (resultFields value)

/-! ## A tool that pages, and its reader -/

/-- A tool that returns `rows[offset : offset + limit]` of its lists, and its offset. -/
structure PagedTool where
  lists : List (FieldName × List ToolValue)
  others : Nat → ToolFields
  limit : Nat
  limit_pos : 0 < limit
  others_plain : ∀ o, listFields (others o) = []
  names : ∀ o, (lists.map Prod.fst ++ (others o).map Prod.fst ++ [offsetName, truncatedName, nextOffsetName]).Nodup

def pageRows (rows : List ToolValue) (offset limit : Nat) : List ToolValue := (rows.drop offset).take limit

def PagedTool.fields (tool : PagedTool) (offset : Nat) : ToolFields :=
  tool.lists.map (fun l => (l.1, .arr (pageRows l.2 offset tool.limit))) ++ tool.others offset ++
    [(offsetName, .num (.int offset))]

def PagedTool.page (tool : PagedTool) (offset : Nat) : ToolValue := .obj (tool.fields offset)

def rowsUnder (out : ToolValue) (key : FieldName) : List ToolValue :=
  match (resultFields out).lookup key with
  | some (.arr rows) => rows
  | _ => []

/-- Where the reader goes on: at `next_offset`, or `limit` behind the page's offset. -/
def nextOffset (out : ToolValue) (limit : Nat) : Option Int :=
  match (resultFields out).lookup nextOffsetName with
  | some (.num (.int m)) => some m
  | _ => (pageOffset (resultFields out)).map (· + limit)

/-- A reader: where it is, and the rows it has seen of each list. -/
structure ToolReader where
  offset : Nat
  seen : FieldName → List ToolValue

def ToolReader.start : ToolReader where
  offset := 0
  seen _ := []

/-- The next page, where the result has one. -/
def ToolReader.read (tool : PagedTool) (s : ToolReader) : Option ToolReader :=
  let out := capResult (tool.page s.offset)
  (nextOffset out tool.limit).map fun m => ⟨m.toNat, fun key => s.seen key ++ rowsUnder out key⟩

end BetterDecision
