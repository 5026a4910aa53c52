import BetterDecision.Lib.Lines
import BetterDecision.Lib.Utf8
import BetterDecision.Model.Decimals

/-!
# Provider responses under a cap

`capped_http.py`: the body of a response is read chunk by chunk and counted as it comes, whole
or line by line. A generator that raises has yielded what it yielded, so the reader of lines
is kept beside the error.
-/

namespace BetterDecision

abbrev Bytes := List UInt8

def maxBodyBytes : Nat := 8 * 1024 * 1024

def maxErrorBodyBytes : Nat := 64 * 1024

def maxStreamLineBytes : Nat := 1024 * 1024

def maxStreamBytes : Nat := 32 * 1024 * 1024

/-- `RESPONSE_TOO_LARGE`, a code of `AIProviderError`. -/
def responseTooLarge : String := "provider_response_too_large"

/-- `UNEXPECTED_ENCODING`, another. -/
def unexpectedEncoding : String := "provider_unexpected_encoding"

structure HttpResponse where
  statusCode : Nat := 200
  contentEncoding : Option Str := none
  /-- What `aiter_bytes` gives. -/
  chunks : List Bytes

/-- `_is_identity`. -/
def HttpResponse.isIdentity (resp : HttpResponse) : Bool :=
  let identity := ['i', 'd', 'e', 'n', 't', 'i', 't', 'y']
  let encoding := (Str.strip (resp.contentEncoding.getD identity)).map Char.toLower
  encoding = [] ∨ encoding = identity

/-! ## Whole bodies -/

/-- The loop of `_read`. -/
def readInto (limit : Nat) (buf : Bytes) : List Bytes → Option Bytes
  | [] => some buf
  | chunk :: chunks =>
    if limit < (buf ++ chunk).length then none else readInto limit (buf ++ chunk) chunks

/-- `_read`. -/
def readCapped (resp : HttpResponse) (limit : Nat) : Option Bytes := readInto limit [] resp.chunks

/-- What `request` makes of the response. -/
def cappedResponse (resp : HttpResponse) (maxBytes : Option Nat) : Except String (Nat × Bytes) :=
  if resp.statusCode ≠ 200 then
    let body := if resp.isIdentity then readCapped resp maxErrorBodyBytes else none
    .ok (resp.statusCode, body.getD [])
  else if resp.isIdentity then
    match readCapped resp (maxBytes.getD maxBodyBytes) with
    | none => .error responseTooLarge
    | some body => .ok (resp.statusCode, body)
  else .error unexpectedEncoding

/-! ## Lines -/

/-- `_LINE_BREAK.split`. -/
def splitBreaks (chunk : Bytes) : List Bytes := Lines.split 13 10 chunk

/-- What `aiter_lines` keeps, and what it has yielded. -/
structure LineReader where
  total : Nat := 0
  pending : Bytes := []
  lines : List Str := []

def LineReader.yieldPending (r : LineReader) : LineReader :=
  { r with lines := r.lines ++ [Utf8.decodeReplace r.pending], pending := [] }

/-- One part of a chunk; `later` is whether it is not the first. -/
def LineReader.take (r : LineReader) (later : Bool) (part : Bytes) : LineReader :=
  let r := if later then r.yieldPending else r
  { r with pending := r.pending ++ part }

/-- The inner loop. An error is a raise, with the reader as it then is. -/
def takeParts (lineLimit : Nat) (r : LineReader) (later : Bool) : List Bytes → Except LineReader LineReader
  | [] => .ok r
  | part :: parts =>
    let r := r.take later part
    if lineLimit < r.pending.length then .error r else takeParts lineLimit r true parts

def takeChunk (lineLimit totalLimit : Nat) (r : LineReader) (chunk : Bytes) : Except LineReader LineReader :=
  let r := { r with total := r.total + chunk.length }
  if totalLimit < r.total then .error r else takeParts lineLimit r false (splitBreaks chunk)

/-- The lines `aiter_lines` yields, and what it raises after them. -/
def aiterLines (resp : HttpResponse) (maxLineBytes maxBytes : Option Nat) : List Str × Option String :=
  let lineLimit := maxLineBytes.getD maxStreamLineBytes
  let totalLimit := maxBytes.getD maxStreamBytes
  if resp.isIdentity then
    match resp.chunks.foldlM (takeChunk lineLimit totalLimit) {} with
    | .error r => (r.lines, some responseTooLarge)
    | .ok r => ((if r.pending = [] then r else r.yieldPending).lines, none)
  else ([], some unexpectedEncoding)

end BetterDecision
