import BetterDecision.Lib.Urls
import BetterDecision.Model.JsText

/-!
# Where to go after signing in

`returnTo.ts`. The path to return to comes from the address of the login page, so anybody
can have written it. It is resolved against an origin that is no site's, to see whether it
stays there, and what the resolved address holds is put together again.

The URL constructor is the parser of `Urls` on the characters of a string. Whatever parser
of hosts the browser has, an address is known by its origin as the browser writes it.
-/

namespace BetterDecision

open Urls

/-- `RETURN_TO_FALLBACK`. -/
def returnToFallback : List Char := ['/', 'd', 'a', 's', 'h', 'b', 'o', 'a', 'r', 'd']

/-- `BLOCKED_RETURN_PATHS`. -/
def blockedReturnPaths : List (List Char) := [['/', 'l', 'o', 'g', 'i', 'n'], ['/', 's', 'e', 't', 'u', 'p']]

/-- `SENTINEL_ORIGIN`. -/
def sentinelOrigin : String := "https://x.invalid"

/-- A C0 control, as the regular expression has it. -/
def isC0Unit (u : UInt16) : Bool := u ≤ 0x1F

/-- `new URL(raw, origin)`. -/
def newUrl (p : Parser String) (raw : JsString) (origin : String) : Option (Url String) :=
  p.parse origin (usvString raw)

def sanitizeReturnTo (p : Parser String) (raw : Option JsString) : JsString :=
  match raw with
  | none | some [] => units returnToFallback
  | some (first :: rest) =>
    if first ≠ unit '/' then units returnToFallback
    else if (first :: rest).any isC0Unit then units returnToFallback
    else if (first :: rest).contains (unit '\\') then units returnToFallback
    else
      match newUrl p (first :: rest) sentinelOrigin with
      | none => units returnToFallback
      | some u =>
        if u.origin ≠ sentinelOrigin then units returnToFallback
        else if blockedReturnPaths.contains u.pathname then units returnToFallback
        else
          let result := u.pathname ++ u.search ++ u.hash
          if ['/', '/'].isPrefixOf result ∨ ['/', '/'].isPrefixOf u.pathname then units returnToFallback
          else
            -- what is put together is resolved once more
            match newUrl p (units result) sentinelOrigin with
            | none => units returnToFallback
            | some again => if again.origin ≠ sentinelOrigin then units returnToFallback else units result

end BetterDecision
