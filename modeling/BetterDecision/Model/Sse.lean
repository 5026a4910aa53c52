import BetterDecision.Lib.JsonParse
import BetterDecision.Lib.Utf8

/-!
# The assistant's event stream

`_sse` and the keepalive comment of `stream_turn` (`services/agent_chat.py`) write it,
`readSse` (`lib/agent/sse.ts`) reads it from the chunks of the response body.
-/

namespace BetterDecision

/-! ## The reader -/

structure SseEvent where
  event : List Char
  data : List Char
  deriving DecidableEq

def eventField : List Char := ['e', 'v', 'e', 'n', 't']

def dataField : List Char := ['d', 'a', 't', 'a']

/-- `replace(/\r\n?/g, "\n")`. -/
def unifyLineEnds : List Char → List Char
  | [] => []
  | '\r' :: '\n' :: rest => '\n' :: unifyLineEnds rest
  | '\r' :: rest => '\n' :: unifyLineEnds rest
  | c :: rest => c :: unifyLineEnds rest

/-- `split("\n")`. -/
def splitLines : List Char → List (List Char)
  | [] => [[]]
  | c :: rest =>
    if c = '\n' then [] :: splitLines rest
    else
      match splitLines rest with
      | [] => [[c]]
      | line :: lines => (c :: line) :: lines

/-- The field a line names and its value; no colon, no value. -/
def fieldOfLine (line : List Char) : List Char × List Char :=
  match line.dropWhile (· ≠ ':') with
  | [] => (line, [])
  | _ :: ' ' :: value => (line.takeWhile (· ≠ ':'), value)
  | _ :: value => (line.takeWhile (· ≠ ':'), value)

/-- One turn of the loop over the lines of a block: the event and the data so far. -/
def readLine (found : List Char × List (List Char)) (line : List Char) : List Char × List (List Char) :=
  if line = [] ∨ line.head? = some ':' then found
  else
    let (field, value) := fieldOfLine line
    if field = eventField then (value, found.2)
    else if field = dataField then (found.1, found.2 ++ [value])
    else found

def parseSseBlock (block : List Char) : Option SseEvent :=
  let (event, data) := (splitLines block).foldl readLine (['m', 'e', 's', 's', 'a', 'g', 'e'], [])
  if data = [] then none else some { event, data := ['\n'].intercalate data }

/-- Up to the first blank line, and past it. -/
def cutBlock : List Char → Option (List Char × List Char)
  | [] => none
  | '\n' :: '\n' :: rest => some ([], rest)
  | c :: rest => (cutBlock rest).map (fun p => (c :: p.1, p.2))

theorem cutBlock_length {buffer block rest : List Char} (h : cutBlock buffer = some (block, rest)) :
    rest.length < buffer.length := by
  fun_induction cutBlock buffer generalizing block with
  | case1 => cases h
  | case2 rest' =>
    cases h
    simp only [List.length_cons]
    omega
  | case3 c cs _ ih =>
    obtain ⟨⟨block, rest⟩, hp, heq⟩ := Option.map_eq_some_iff.mp h
    cases heq
    have hlt := ih hp
    rw [List.length_cons]
    omega

/-- The blocks of the buffer, and what waits for its blank line. -/
def takeBlocks (buffer : List Char) : List (List Char) × List Char :=
  match h : cutBlock buffer with
  | none => ([], buffer)
  | some (block, rest) =>
    have := cutBlock_length h
    let later := takeBlocks rest
    (block :: later.1, later.2)
termination_by buffer.length

/-- What `readSse` keeps between chunks. -/
structure SseReader where
  decoder : Utf8.Decoder
  carry : List Char
  buffer : List Char

def SseReader.fresh : SseReader where
  decoder := Utf8.Decoder.fresh
  carry := []
  buffer := []

/-- The line ends of `carry + decoded` unified, a trailing CR being carried on: it may be the
first half of a CRLF split across chunks. -/
def normalise (carry decoded : List Char) : List Char × List Char :=
  let text := carry ++ decoded
  if text.getLast? = some '\r' then (['\r'], unifyLineEnds text.dropLast) else ([], unifyLineEnds text)

/-- One chunk. -/
def readChunk (reader : SseReader) (value : List UInt8) : SseReader × List SseEvent :=
  let (decoder, decoded) := Utf8.decode reader.decoder value
  let (carry, text) := normalise reader.carry decoded
  let (blocks, buffer) := takeBlocks (reader.buffer ++ text)
  ({ decoder, carry, buffer }, blocks.filterMap parseSseBlock)

/-- The events of a response body that came in these chunks. -/
def readSse (chunks : List (List UInt8)) : List SseEvent :=
  (Streams.feed readChunk SseReader.fresh chunks).2

/-! ## The server -/

/-- A number as JSON has it. -/
abbrev JsonNumber := { text : List Char // Json.isNumber text = true }

abbrev JsonValue := Json.Value JsonNumber

/-- `json.dumps(data, separators=(',', ':'))`. -/
def compact : Json.Format JsonNumber where
  number := Subtype.val
  escape := Json.escapeAscii
  itemSep := [',']
  keySep := [':']

/-- A name without line breaks. -/
abbrev EventName := { name : List Char // '\n' ∉ name ∧ '\r' ∉ name }

def sse (event : EventName) (data : JsonValue) : List Char :=
  eventField ++ ':' :: ' ' :: event.val ++ '\n' :: dataField ++ ':' :: ' ' :: Json.dumps compact data ++
    ['\n', '\n']

def keepaliveComment : List Char := [':', ' ', 'k', 'e', 'e', 'p', 'a', 'l', 'i', 'v', 'e']

def keepalive : List Char := keepaliveComment ++ ['\n', '\n']

/-- What `stream_turn` yields. -/
inductive Yielded
  | event (name : EventName) (data : JsonValue)
  | keepalive

def Yielded.text : Yielded → List Char
  | .event name data => sse name data
  | .keepalive => BetterDecision.keepalive

/-- The bytes of the response. -/
def responseBody (yields : List Yielded) : List UInt8 := Utf8.encode (yields.flatMap Yielded.text)

end BetterDecision
