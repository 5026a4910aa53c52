import BetterDecision.Lib.Patterns
import BetterDecision.Model.Decimals

/-!
# Categories of bank descriptions

`category_rules_service`: the merchant token of a description, and the category that the
org's rules, or else the shared dictionary, give it, for one description and for many.

What Unicode says about a text (`unicodedata`, `str.upper`) is a parameter that is only
pinned down on ASCII.
-/

namespace BetterDecision

open Patterns Pattern

/-! ## Text -/

def IsAscii (text : Str) : Prop := ∀ c ∈ text, c.toNat < 128

/-- The tables of Unicode, as far as they are asked. -/
structure TextTables where
  /-- `unicodedata.normalize("NFKD", s)` -/
  nfkd : Str → Str
  /-- `unicodedata.combining(c) != 0` -/
  combining : Char → Bool
  upper : Str → Str
  nfkd_ascii : ∀ text, IsAscii text → nfkd text = text
  combining_ascii : ∀ c, c.toNat < 128 → combining c = false
  upper_ascii : ∀ text, IsAscii text → upper text = text.map Char.toUpper

/-- The tables of a world that knows ASCII only. -/
def asciiTables : TextTables where
  nfkd text := text
  combining _ := false
  upper text := text.map Char.toUpper
  nfkd_ascii _ _ := rfl
  combining_ascii _ _ := rfl
  upper_ascii _ _ := rfl

variable (T : TextTables)

/-- `_strip_accents`. -/
def stripAccents (text : Str) : Str := (T.nfkd text).filter (fun c => !T.combining c)

/-! ## The merchant token -/

/-- `[A-Z0-9]` -/
def isTokenChar (c : Char) : Bool := c.isUpper || c.isDigit

/-- `\d` -/
def isDecimal (c : Char) : Bool := (decimalDigit? c).isSome

def spaces : Pattern := .many isSpace 0 none

def someSpace : Pattern := .many isSpace 1 none

/-- `_URL_SCHEME`. The texts it is asked of are in capitals already, so `IGNORECASE` has
nothing left to do, here and below. -/
def urlScheme : Pattern :=
  allOf [spaces, text ['H', 'T', 'T', 'P'], .alt (text ['S']) .empty, text [':', '/', '/']]

/-- `_LEADING_MASKED_CARD` -/
def leadingMaskedCard : Pattern :=
  allOf [spaces, .many (· == '*') 1 none, spaces, .many isDecimal 2 none, someSpace]

/-- `_LEADING_NOISE` -/
def leadingNoise : Pattern :=
  allOf [spaces,
    anyOf [text ['P', 'O', 'S'],
      allOf [text ['C', 'A', 'R', 'D'], spaces, text ['P', 'A', 'Y', 'M', 'E', 'N', 'T']],
      text ['C', 'A', 'R', 'D'],
      text ['P', 'A', 'Y'],
      allOf [text ['S', 'E', 'P', 'A'],
        .alt (allOf [someSpace, text ['T', 'R', 'A', 'N', 'S', 'F', 'E', 'R']]) .empty],
      text ['D', 'E', 'B'],
      text ['C', 'A', 'R', 'T', 'A', 'O']],
    someSpace]

def digits (n : Nat) : Pattern := .many isDecimal n (some n)

/-- `_TRAILING_TOKENS` -/
def trailingTokens : Pattern :=
  allOf [
    anyOf [
      allOf [spaces, .many Char.isUpper 2 (some 2), digits 2, .many isTokenChar 10 (some 30)],
      allOf [spaces, text ['*'], .many isTokenChar 1 none],
      allOf [someSpace, digits 4, text ['-'], digits 2, text ['-'], digits 2],
      allOf [someSpace, digits 8],
      allOf [text ['='], .many isTokenChar 1 none]],
    spaces, .atEnd]

/-- `_NON_ALNUM` -/
def nonAlnum : Pattern := .many (fun c => !isTokenChar c) 1 none

def leadingStopwords : List Str :=
  [['T', 'R', 'A', 'N', 'S', 'F', 'E', 'R'], ['P', 'A', 'Y', 'M', 'E', 'N', 'T'], ['D', 'E', 'B', 'I', 'T'],
    ['C', 'R', 'E', 'D', 'I', 'T'], ['T', 'X', 'N'], ['T', 'X']]

/-- `_TRAILING_COMPANY_FORMS` -/
def trailingCompanyForms : List (List Str) :=
  [[['B'], ['V']], [['N'], ['V']], [['S'], ['A']], [['B', 'V']], [['N', 'V']], [['S', 'A']], [['B', 'V', 'B', 'A']],
    [['G', 'M', 'B', 'H']], [['A', 'G']], [['I', 'N', 'C']], [['L', 'L', 'C']], [['L', 'T', 'D']]]

/-- `_MULTI_SPACE.sub(" ", _NON_ALNUM.sub(" ", s)).strip()` -/
def collapseToTokens (s : Str) : Str := Str.strip (someSpace.replaceAll [' '] (nonAlnum.replaceAll [' '] s))

/-- `_strip_accents(raw).strip().upper()` -/
def cleaned (raw : Str) : Str := T.upper (Str.strip (stripAccents T raw))

/-- `_fallback`. -/
def fallbackToken (raw : Str) : Str := collapseToTokens (cleaned T raw)

theorem dropTrailing_sublist (s : Str) : ((trailingTokens.replaceAll [] s).rdropWhile isSpace).Sublist s :=
  (List.rdropWhile_prefix isSpace _).sublist.trans (replaceAll_sublist _ _)

/-- Step 3: trailing markers, until there are none. -/
def dropTrailing (s : Str) : Str :=
  let new := (trailingTokens.replaceAll [] s).rdropWhile isSpace
  if new = s then s else dropTrailing new
  termination_by s.length
  decreasing_by
    next hne =>
      exact Nat.lt_of_not_le fun hle => hne ((dropTrailing_sublist s).eq_of_length_le hle)

/-- `str.split()` -/
def splitSpaces (s : Str) : List Str := (s.splitOnP isSpace).filter (· ≠ [])

/-- Step 5. -/
def dropStopword : List Str → List Str
  | [] => []
  | token :: tokens => if token ∈ leadingStopwords then tokens else token :: tokens

/-- Step 6. -/
def dropTrailingDigits (tokens : List Str) : List Str :=
  tokens.rdropWhile (fun token => token.all Char.isDigit && 4 ≤ token.length)

/-- Step 7. -/
def dropCompanyForms (tokens : List Str) : List Str :=
  match h : trailingCompanyForms.find? (fun form => form.isSuffixOf tokens) with
  | some form => dropCompanyForms (tokens.take (tokens.length - form.length))
  | none => tokens
  termination_by tokens.length
  decreasing_by
    have hform : form ∈ trailingCompanyForms := List.mem_of_find?_eq_some h
    have hfound : form.isSuffixOf tokens = true := by simpa using List.find?_some h
    have hsuffix : form <:+ tokens := List.isSuffixOf_iff_suffix.mp hfound
    have hpos : 0 < form.length := (by decide : ∀ form ∈ trailingCompanyForms, 0 < form.length) form hform
    have hle := hsuffix.length_le
    rw [List.length_take]
    omega

def joinTokens (tokens : List Str) : Str := [' '].intercalate tokens

/-- `normalize_description`. -/
def normalizeDescription (raw : Str) : Str :=
  let s := cleaned T raw
  if raw = [] ∨ s = [] then []
  else
    let s := leadingNoise.cutFront (leadingMaskedCard.cutFront (urlScheme.cutFront s))
    let s := collapseToTokens (dropTrailing s)
    if s = [] then fallbackToken T raw
    else
      let candidate := Str.strip (joinTokens (dropCompanyForms (dropTrailingDigits (dropStopword (splitSpaces s)))))
      if candidate.length < 3 then fallbackToken T raw else candidate

/-! ## The tables that are asked -/

structure RuleRow where
  orgId : Nat
  normalizedToken : Str
  categoryId : Option Nat

structure DictionaryRow where
  normalizedToken : Str
  categorySlug : Str

structure SlugRow where
  id : Nat
  orgId : Nat
  slug : Option Str
  isSystem : Bool

structure InferenceRows where
  rules : List RuleRow
  dictionary : List DictionaryRow
  categories : List SlugRow

/-- `_collation_key`. -/
def collationKey (value : Str) : Str := T.upper (stripAccents T value)

/-- How the database compares two texts. -/
def sameText (a b : Str) : Bool := collationKey T a = collationKey T b

def sameSlug (a : Option Str) (b : Str) : Bool := a.any (sameText T · b)

/-- At most one rule for an org and a token, one entry for a token, one system category for
an org and a slug. -/
structure InferenceDb extends InferenceRows where
  one_rule : rules.Pairwise (fun a b => ¬ (a.orgId = b.orgId ∧ sameText T a.normalizedToken b.normalizedToken))
  one_entry : dictionary.Pairwise (fun a b => ¬ sameText T a.normalizedToken b.normalizedToken)
  one_category : categories.Pairwise (fun a b => ¬ (a.orgId = b.orgId ∧ a.isSystem ∧ b.isSystem ∧
    ∃ s ∈ a.slug, sameSlug T b.slug s))

inductive InferSource
  | orgRule
  | sharedDictionary
  | default
  deriving DecidableEq

abbrev Inferred := Option Nat × InferSource

/-- `MultipleResultsFound`. -/
inductive MultipleResults
  | found

/-! ## One description -/

/-- `scalar_one_or_none()` -/
def scalarOneOrNone {α : Type} : List α → Except MultipleResults (Option α)
  | [] => .ok none
  | [a] => .ok (some a)
  | _ => .error .found

/-- `infer_category`. -/
def inferCategory (db : InferenceRows) (orgId : Nat) (description : Str) : Except MultipleResults Inferred := do
  let token := normalizeDescription T description
  if token = [] then return (none, .default)
  let rule ← scalarOneOrNone (db.rules.filter (fun r => r.orgId = orgId ∧ sameText T r.normalizedToken token))
  match rule.bind (·.categoryId) with
  | some categoryId => return (some categoryId, .orgRule)
  | none =>
    let entry ← scalarOneOrNone (db.dictionary.filter (fun e => sameText T e.normalizedToken token))
    match entry.filter (·.categorySlug ≠ []) with
    | some entry =>
      let category ← scalarOneOrNone
        (db.categories.filter (fun c => c.orgId = orgId ∧ sameSlug T c.slug entry.categorySlug ∧ c.isSystem))
      match category with
      | some category => return (some category.id, .sharedDictionary)
      | none => return (none, .default)
    | none => return (none, .default)

/-! ## Many descriptions -/

/-- What stands under a key of a dictionary that was filled row by row. -/
def rowsByKey {α : Type} (text : α → Str) (rows : List α) (key : Str) : List α :=
  rows.filter (fun r => collationKey T (text r) = key)

/-- `_pick`. -/
def pick {α : Type} (text : α → Str) (rows : List α) (token : Str) : Except MultipleResults (Option α) :=
  let exact := rows.filter (fun r => text r = token)
  scalarOneOrNone (if exact = [] then rows else exact)

/-- Tier 1: the org's rules for every token, in one query. -/
def resolveRules (db : InferenceRows) (orgId : Nat) (wanted : List Str) : Except MultipleResults (List (Str × Nat)) := do
  let rows := db.rules.filter (fun r => r.orgId = orgId ∧ wanted.any (sameText T r.normalizedToken))
  let picked ← wanted.mapM fun token => do
    let rule ← pick (·.normalizedToken) (rowsByKey T (·.normalizedToken) rows token) token
    return (rule.bind (·.categoryId)).map (token, ·)
  return picked.reduceOption

/-- Tier 2: the slugs the shared dictionary names for the open tokens. -/
def resolveSlugs (db : InferenceRows) (openTokens : List Str) : Except MultipleResults (List (Str × Str)) := do
  let rows := db.dictionary.filter (fun e => openTokens.any (sameText T e.normalizedToken))
  let picked ← openTokens.mapM fun token => do
    let entry ← pick (·.normalizedToken) (rowsByKey T (·.normalizedToken) rows token) token
    return (entry.filter (·.categorySlug ≠ [])).map fun e => (token, e.categorySlug)
  return picked.reduceOption

/-- The org's system categories for these slugs. -/
def resolveCategories (db : InferenceRows) (orgId : Nat) (slugForToken : List (Str × Str)) :
    Except MultipleResults (List (Str × Nat)) := do
  let rows := db.categories.filter (fun c =>
    c.orgId = orgId ∧ slugForToken.any (fun p => sameSlug T c.slug p.2) ∧ c.isSystem)
  let picked ← slugForToken.mapM fun (token, slug) => do
    let category ← pick (fun c => c.slug.getD []) (rowsByKey T (fun c => c.slug.getD []) rows (collationKey T slug)) slug
    return category.map fun c => (token, c.id)
  return picked.reduceOption

/-- `infer_categories`. The sets of the source are lists without repetitions here; a query
over no tokens finds nothing. -/
def inferCategories (db : InferenceRows) (orgId : Nat) (descriptions : List Str) :
    Except MultipleResults (List (Str × Inferred)) := do
  let tokens := descriptions.dedup.map fun d => (d, normalizeDescription T d)
  let wanted := ((tokens.map Prod.snd).filter (· ≠ [])).dedup
  let ruled ← resolveRules T db orgId wanted
  let openTokens := wanted.filter (· ∉ ruled.map Prod.fst)
  let slugForToken ← resolveSlugs T db openTokens
  let named ← resolveCategories T db orgId slugForToken
  let resolved := ruled.map (fun p => (p.1, some p.2, InferSource.orgRule)) ++
    named.map (fun p => (p.1, some p.2, InferSource.sharedDictionary))
  return tokens.map fun (d, t) =>
    (d, if t = [] then (none, .default) else (resolved.lookup t).getD (none, .default))

end BetterDecision
