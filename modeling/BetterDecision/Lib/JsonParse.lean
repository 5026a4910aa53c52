import Mathlib
import BetterDecision.Lib.Json

/-!
# Reading JSON back

A parser for the grammar, blanks included, and `parse_dumps`: what a lawful format writes
is read back as the same value. Strings go through UTF-16 as they do in the escapes, so a
character beyond the first plane is one value and two escapes.

The fuel is the length of the text, of which every nested value takes a character at least.
-/

namespace Json

/-! ## Strings -/

@[grind] def hexValue (c : Char) : Option Nat :=
  if '0' ≤ c ∧ c ≤ '9' then some (c.toNat - 48)
  else if 'a' ≤ c ∧ c ≤ 'f' then some (c.toNat - 87)
  else if 'A' ≤ c ∧ c ≤ 'F' then some (c.toNat - 55)
  else none

@[grind] def hex4 (a b c d : Char) : Option Nat := do
  some (4096 * (← hexValue a) + 256 * (← hexValue b) + 16 * (← hexValue c) + (← hexValue d))

/-- The character a one-letter escape stands for. -/
@[grind] def unescapeLetter (c : Char) : Option Char :=
  if c = '"' then some '"'
  else if c = '\\' then some '\\'
  else if c = '/' then some '/'
  else if c = 'n' then some '\n'
  else if c = 'r' then some '\r'
  else if c = 't' then some '\t'
  else if c = 'f' then some '\x0c'
  else if c = 'b' then some '\x08'
  else none

/-- The code units of a string, up to its closing quote. -/
@[grind] def parseUnits : List Char → Option (List Nat × List Char)
  | [] => none
  | '"' :: rest => some ([], rest)
  | '\\' :: 'u' :: a :: b :: c :: d :: rest =>
    match hex4 a b c d with
    | none => none
    | some u => (parseUnits rest).map (fun p => (u :: p.1, p.2))
  | '\\' :: letter :: rest =>
    match unescapeLetter letter with
    | none => none
    | some c => (parseUnits rest).map (fun p => (utf16 c ++ p.1, p.2))
  | c :: rest => if c.toNat < 0x20 then none else (parseUnits rest).map (fun p => (utf16 c ++ p.1, p.2))

/-- The characters of a list of code units; a surrogate without its partner is none. -/
@[grind] def ofUtf16 : List Nat → Option (List Char)
  | [] => some []
  | u :: us =>
    if u < 0xD800 ∨ 0xE000 ≤ u then (ofUtf16 us).map (Char.ofNat u :: ·)
    else
      match us with
      | [] => none
      | v :: rest =>
        if u < 0xDC00 ∧ 0xDC00 ≤ v ∧ v < 0xE000 then
          (ofUtf16 rest).map (Char.ofNat (0x10000 + (u - 0xD800) * 0x400 + (v - 0xDC00)) :: ·)
        else none

/-- A string, after its opening quote. -/
@[grind] def parseString (cs : List Char) : Option (List Char × List Char) := do
  let (us, rest) ← parseUnits cs
  some (← ofUtf16 us, rest)

/-! ## Values -/

@[grind] def isBlank (c : Char) : Bool := c = ' ' || c = '\n' || c = '\r' || c = '\t'

@[grind] def skipBlanks (cs : List Char) : List Char := cs.dropWhile isBlank

@[grind] def isNumberChar (c : Char) : Bool :=
  c.isDigit || c = '-' || c = '+' || c = '.' || c = 'e' || c = 'E'

variable {ν : Type} (readNumber : List Char → Option ν)

mutual

@[grind] def parseValue : Nat → List Char → Option (Value ν × List Char)
  | 0, _ => none
  | fuel + 1, cs =>
    match skipBlanks cs with
    | 'n' :: 'u' :: 'l' :: 'l' :: rest => some (.null, rest)
    | 't' :: 'r' :: 'u' :: 'e' :: rest => some (.bool true, rest)
    | 'f' :: 'a' :: 'l' :: 's' :: 'e' :: rest => some (.bool false, rest)
    | '"' :: rest => (parseString rest).map (fun p => (.str p.1, p.2))
    | '[' :: rest =>
      match skipBlanks rest with
      | ']' :: rest' => some (.arr [], rest')
      | _ => (parseRows fuel rest).map (fun p => (.arr p.1, p.2))
    | '{' :: rest =>
      match skipBlanks rest with
      | '}' :: rest' => some (.obj [], rest')
      | _ => (parseFields fuel rest).map (fun p => (.obj p.1, p.2))
    | other =>
      (readNumber (other.takeWhile isNumberChar)).map (fun n => (.num n, other.dropWhile isNumberChar))

@[grind] def parseRows : Nat → List Char → Option (List (Value ν) × List Char)
  | 0, _ => none
  | fuel + 1, cs =>
    match parseValue fuel cs with
    | none => none
    | some (row, rest) =>
      match skipBlanks rest with
      | ',' :: rest' => (parseRows fuel rest').map (fun p => (row :: p.1, p.2))
      | ']' :: rest' => some ([row], rest')
      | _ => none

@[grind] def parseFields : Nat → List Char → Option (List (List Char × Value ν) × List Char)
  | 0, _ => none
  | fuel + 1, cs =>
    match skipBlanks cs with
    | '"' :: rest =>
      match parseString rest with
      | none => none
      | some (key, rest) =>
        match skipBlanks rest with
        | ':' :: rest =>
          match parseValue fuel rest with
          | none => none
          | some (v, rest) =>
            match skipBlanks rest with
            | ',' :: rest' => (parseFields fuel rest').map (fun p => ((key, v) :: p.1, p.2))
            | '}' :: rest' => some ([(key, v)], rest')
            | _ => none
        | _ => none
    | _ => none

end

/-- A whole text. -/
@[grind] def parse (cs : List Char) : Option (Value ν) :=
  match parseValue readNumber (cs.length + 1) cs with
  | some (v, rest) => if skipBlanks rest = [] then some v else none
  | none => none

/-! ## Characters read back -/

theorem hexValue_hexDigit : ∀ d < 16, hexValue (hexDigit d) = some d := by decide

theorem hex4_hexEscape {u : Nat} (h : u < 65536) :
    hex4 (hexDigit (u / 4096 % 16)) (hexDigit (u / 256 % 16)) (hexDigit (u / 16 % 16)) (hexDigit (u % 16)) =
      some u := by
  simp only [hex4, hexValue_hexDigit _ (Nat.mod_lt _ (by decide : 16 > 0)), Option.bind_eq_bind, Option.bind_some]
  congr 1
  omega

/-- A character is no surrogate. -/
theorem toNat_range (c : Char) : c.toNat < 0xD800 ∨ 0xE000 ≤ c.toNat ∧ c.toNat < 0x110000 := by
  have h := c.valid
  simp only [UInt32.isValidChar, Nat.isValidChar] at h
  change c.val.toNat < 0xD800 ∨ 0xE000 ≤ c.val.toNat ∧ c.val.toNat < 0x110000
  omega

theorem utf16_lt {c : Char} {u : Nat} (h : u ∈ utf16 c) : u < 65536 := by
  have hc := toNat_range c
  rw [utf16] at h
  split at h
  · rw [List.mem_singleton.mp h]
    assumption
  · simp only [List.mem_cons, List.not_mem_nil, or_false] at h
    omega

theorem ofUtf16_append (c : Char) (us : List Nat) :
    ofUtf16 (utf16 c ++ us) = (ofUtf16 us).map (c :: ·) := by
  have hc := toNat_range c
  rw [utf16]
  split
  · rw [List.singleton_append, ofUtf16.eq_def]
    dsimp only
    rw [if_pos (by omega), Char.ofNat_toNat]
  · rw [List.cons_append, List.singleton_append, ofUtf16.eq_def]
    dsimp only
    rw [if_neg (by omega), if_pos (by omega)]
    have hback : 0x10000 + (0xD800 + (c.toNat - 0x10000) / 0x400 - 0xD800) * 0x400 +
        (0xDC00 + (c.toNat - 0x10000) % 0x400 - 0xDC00) = c.toNat := by omega
    rw [hback, Char.ofNat_toNat]

theorem ofUtf16_flatMap (s : List Char) : ofUtf16 (s.flatMap utf16) = some s := by
  induction s with
  | nil => rfl
  | cons c s ih => rw [List.flatMap_cons, ofUtf16_append, ih, Option.map_some]

/-- The escape of a character is read as its code units. -/
@[grind] def ReadsBack (escape : Char → List Char) : Prop :=
  ∀ c rest, parseUnits (escape c ++ rest) = (parseUnits rest).map (fun p => (utf16 c ++ p.1, p.2))

theorem parseUnits_hexEscape (us : List Nat) (h : ∀ u ∈ us, u < 65536) (rest : List Char) :
    parseUnits (us.flatMap hexEscape ++ rest) = (parseUnits rest).map (fun p => (us ++ p.1, p.2)) := by
  induction us with
  | nil => simp
  | cons u us ih =>
    have hu : parseUnits (hexEscape u ++ (us.flatMap hexEscape ++ rest)) =
        (parseUnits (us.flatMap hexEscape ++ rest)).map (fun p => (u :: p.1, p.2)) := by
      simp only [hexEscape, List.cons_append, List.nil_append, parseUnits]
      rw [hex4_hexEscape (h u List.mem_cons_self)]
    rw [List.flatMap_cons, List.append_assoc, hu, ih fun v hv => h v (List.mem_cons_of_mem _ hv), Option.map_map]
    rfl

theorem readsBack_escapeUnless {raw : Char → Bool} (hraw : ∀ c, raw c = true → 0x20 ≤ c.toNat) :
    ReadsBack (escapeUnless raw) := by
  intro c rest
  rw [escapeUnless]
  cases hshort : shortEscape c with
  | some letter =>
    have hletter : letter ≠ 'u' ∧ unescapeLetter letter = some c := by
      revert hshort
      rw [shortEscape]
      split_ifs <;> rintro ⟨⟩ <;> subst_vars <;> decide
    simp only [List.cons_append, List.nil_append]
    rw [parseUnits]
    · rw [hletter.2]
    · rintro _ _ _ _ _ rfl
      exact absurd rfl hletter.1
  | none =>
    have hplain : c ≠ '"' ∧ c ≠ '\\' := by
      revert hshort
      rw [shortEscape]
      split_ifs <;> rintro ⟨⟩
      exact ⟨‹_›, ‹_›⟩
    dsimp only
    split
    · next hr =>
      have hge := hraw c hr
      rw [List.singleton_append, parseUnits.eq_def]
      split <;> simp_all
    · exact parseUnits_hexEscape _ (fun u hu => utf16_lt hu) rest

theorem parseString_flatMap {escape : Char → List Char} (h : ReadsBack escape) (s rest : List Char) :
    parseString (s.flatMap escape ++ '"' :: rest) = some (s, rest) := by
  have hunits : parseUnits (s.flatMap escape ++ '"' :: rest) = some (s.flatMap utf16, rest) := by
    induction s with
    | nil => rfl
    | cons c s ih => rw [List.flatMap_cons, List.append_assoc, h, ih, Option.map_some, List.flatMap_cons]
  rw [parseString, hunits]
  simp only [Option.bind_eq_bind, Option.bind_some, ofUtf16_flatMap]

/-! ## Values read back -/

/-- What `parse_dumps` asks of a format: separators with nothing but blanks, and strings
and numbers that are read back. -/
structure Lawful (fmt : Format ν) (readNumber : List Char → Option ν) : Prop where
  items : ∃ blanks : List Char, fmt.itemSep = ',' :: blanks ∧ ∀ c ∈ blanks, isBlank c = true
  keys : ∃ blanks : List Char, fmt.keySep = ':' :: blanks ∧ ∀ c ∈ blanks, isBlank c = true
  strings : ReadsBack fmt.escape
  numbers : ∀ n, fmt.number n ≠ [] ∧ (∀ c ∈ fmt.number n, isNumberChar c = true) ∧
    readNumber (fmt.number n) = some n

/-- Nothing that would go on with a number. -/
@[grind] def EndsNumber (rest : List Char) : Prop := ∀ c ∈ rest.head?, isNumberChar c = false

theorem skipBlanks_append {blanks cs : List Char} (h : ∀ c ∈ blanks, isBlank c = true) :
    skipBlanks (blanks ++ cs) = skipBlanks cs :=
  List.dropWhile_append_of_pos h

theorem skipBlanks_cons {c : Char} {cs : List Char} (h : isBlank c = false) : skipBlanks (c :: cs) = c :: cs := by
  rw [skipBlanks, List.dropWhile_cons_of_neg (by simp [h])]

theorem takeWhile_number {ds rest : List Char} (h : ∀ c ∈ ds, isNumberChar c = true) (hrest : EndsNumber rest) :
    (ds ++ rest).takeWhile isNumberChar = ds ∧ (ds ++ rest).dropWhile isNumberChar = rest := by
  have hend : rest.takeWhile isNumberChar = [] ∧ rest.dropWhile isNumberChar = rest := by
    cases rest with
    | nil => exact ⟨rfl, rfl⟩
    | cons c cs =>
      have hc := hrest c rfl
      exact ⟨by simp [hc], by simp [hc]⟩
  rw [List.takeWhile_append_of_pos h, List.dropWhile_append_of_pos h, hend.1, hend.2, List.append_nil]
  exact ⟨rfl, rfl⟩

/-- A number starts no other value. -/
theorem numberChar_ne {c : Char} (h : isNumberChar c = true) :
    isBlank c = false ∧ c ≠ 'n' ∧ c ≠ 't' ∧ c ≠ 'f' ∧ c ≠ '"' ∧ c ≠ '[' ∧ c ≠ '{' := by
  refine ⟨?_, ?_, ?_, ?_, ?_, ?_, ?_⟩
  · by_contra hb
    simp only [Bool.not_eq_false, isBlank, Bool.or_eq_true, decide_eq_true_eq] at hb
    rcases hb with ((rfl | rfl) | rfl) | rfl <;> exact absurd h (by decide)
  all_goals
    rintro rfl
    exact absurd h (by decide)

section RoundTrip

variable {fmt : Format ν} {readNumber : List Char → Option ν} (law : Lawful fmt readNumber)
include law

theorem skipBlanks_itemSep (rest : List Char) :
    ∃ blanks : List Char, skipBlanks (fmt.itemSep ++ rest) = ',' :: (blanks ++ rest) ∧ ∀ c ∈ blanks, isBlank c = true := by
  obtain ⟨blanks, hsep, hblanks⟩ := law.items
  exact ⟨blanks, by rw [hsep, List.cons_append, skipBlanks_cons (by decide)], hblanks⟩

theorem parseValue_number (n : ν) (fuel : Nat) (rest : List Char) (hrest : EndsNumber rest) :
    parseValue readNumber (fuel + 1) (fmt.number n ++ rest) = some (.num n, rest) := by
  obtain ⟨hne, hchars, hread⟩ := law.numbers n
  obtain ⟨c, cs, hcs⟩ := List.exists_cons_of_ne_nil hne
  have hc := numberChar_ne (hchars c (hcs ▸ List.mem_cons_self))
  obtain ⟨htake, hdrop⟩ := takeWhile_number hchars hrest
  rw [hcs, List.cons_append] at htake hdrop ⊢
  rw [parseValue, skipBlanks_cons hc.1]
  split
  · next heq => exact absurd (List.cons.inj heq).1 hc.2.1
  · next heq => exact absurd (List.cons.inj heq).1 hc.2.2.1
  · next heq => exact absurd (List.cons.inj heq).1 hc.2.2.2.1
  · next heq => exact absurd (List.cons.inj heq).1 hc.2.2.2.2.1
  · next heq => exact absurd (List.cons.inj heq).1 hc.2.2.2.2.2.1
  · next heq => exact absurd (List.cons.inj heq).1 hc.2.2.2.2.2.2
  · rw [htake, hdrop, ← hcs, hread]
    rfl

theorem endsNumber_moreRows (rows : List (Value ν)) (rest : List Char) : EndsNumber (moreRows fmt rows ++ rest) := by
  obtain ⟨blanks, hsep, -⟩ := law.items
  intro d hd
  cases rows with
  | nil =>
    cases hd
    decide
  | cons row rows =>
    rw [moreRows, hsep] at hd
    cases hd
    decide

theorem endsNumber_moreFields (fields : List (List Char × Value ν)) (rest : List Char) :
    EndsNumber (moreFields fmt fields ++ rest) := by
  obtain ⟨blanks, hsep, -⟩ := law.items
  intro d hd
  cases fields with
  | nil =>
    cases hd
    decide
  | cons field fields =>
    rw [moreFields, hsep] at hd
    cases hd
    decide

omit law in
theorem parseValue_blanks {blanks : List Char} (h : ∀ c ∈ blanks, isBlank c = true) (fuel : Nat) (cs : List Char) :
    parseValue readNumber fuel (blanks ++ cs) = parseValue readNumber fuel cs := by
  cases fuel with
  | zero => rfl
  | succ fuel => rw [parseValue, parseValue, skipBlanks_append h]

omit law in
theorem parseRows_blanks {blanks : List Char} (h : ∀ c ∈ blanks, isBlank c = true) (fuel : Nat) (cs : List Char) :
    parseRows readNumber fuel (blanks ++ cs) = parseRows readNumber fuel cs := by
  cases fuel with
  | zero => rfl
  | succ fuel => rw [parseRows, parseRows, parseValue_blanks h]

omit law in
theorem parseFields_blanks {blanks : List Char} (h : ∀ c ∈ blanks, isBlank c = true) (fuel : Nat) (cs : List Char) :
    parseFields readNumber fuel (blanks ++ cs) = parseFields readNumber fuel cs := by
  cases fuel with
  | zero => rfl
  | succ fuel => rw [parseFields, parseFields, skipBlanks_append h]

omit law in
/-- No value starts with a closing bracket or with a blank. -/
theorem dumps_head (law : Lawful fmt readNumber) (v : Value ν) :
    ∃ c cs, dumps fmt v = c :: cs ∧ isBlank c = false ∧ c ≠ ']' := by
  cases v with
  | num n =>
    obtain ⟨hne, hchars, -⟩ := law.numbers n
    obtain ⟨c, cs, hcs⟩ := List.exists_cons_of_ne_nil hne
    have hc := hchars c (hcs ▸ List.mem_cons_self)
    refine ⟨c, cs, by rw [dumps, hcs], (numberChar_ne hc).1, ?_⟩
    rintro rfl
    exact absurd hc (by decide)
  | null => exact ⟨_, _, rfl, by decide, by decide⟩
  | bool b => cases b <;> exact ⟨_, _, rfl, by decide, by decide⟩
  | str s => exact ⟨_, _, rfl, by decide, by decide⟩
  | arr rows => cases rows <;> exact ⟨_, _, rfl, by decide, by decide⟩
  | obj fields => cases fields <;> exact ⟨_, _, rfl, by decide, by decide⟩

omit law in
theorem parseValue_quote (fuel : Nat) (rest : List Char) :
    parseValue readNumber (fuel + 1) ('"' :: rest) = (parseString rest).map (fun p => (.str p.1, p.2)) := by
  rw [parseValue, skipBlanks_cons (by decide)]
  rfl

omit law in
theorem parseValue_bracket (fuel : Nat) {rest : List Char} {c : Char} {cs : List Char}
    (h : skipBlanks rest = c :: cs) (hne : c ≠ ']') :
    parseValue readNumber (fuel + 1) ('[' :: rest) =
      (parseRows readNumber fuel rest).map (fun p => (.arr p.1, p.2)) := by
  rw [parseValue, skipBlanks_cons (by decide)]
  change (match skipBlanks rest with | ']' :: rest' => _ | _ => _) = _
  rw [h]
  split
  · next heq => exact absurd (List.cons.inj heq).1 hne
  · rfl

omit law in
theorem parseValue_brace (fuel : Nat) {rest : List Char} {c : Char} {cs : List Char}
    (h : skipBlanks rest = c :: cs) (hne : c ≠ '}') :
    parseValue readNumber (fuel + 1) ('{' :: rest) =
      (parseFields readNumber fuel rest).map (fun p => (.obj p.1, p.2)) := by
  rw [parseValue, skipBlanks_cons (by decide)]
  change (match skipBlanks rest with | '}' :: rest' => _ | _ => _) = _
  rw [h]
  split
  · next heq => exact absurd (List.cons.inj heq).1 hne
  · rfl

theorem parseKey (key rest : List Char) :
    ∃ tail : List Char, quote fmt key ++ rest = '"' :: tail ∧ parseString tail = some (key, rest) :=
  ⟨key.flatMap fmt.escape ++ '"' :: rest, by rw [quote, List.cons_append, List.append_assoc]; rfl,
    parseString_flatMap law.strings key rest⟩

mutual

/-- A value is read back, and what follows it is left. -/
theorem parseValue_dumps : ∀ (v : Value ν) (fuel : Nat) (rest : List Char), (dumps fmt v).length ≤ fuel →
    EndsNumber rest → parseValue readNumber fuel (dumps fmt v ++ rest) = some (v, rest)
  | .null, fuel + 1, rest, _, _ => by
    rw [dumps, parseValue, List.cons_append, skipBlanks_cons (by decide)]
    rfl
  | .bool true, fuel + 1, rest, _, _ => by
    rw [dumps, parseValue, List.cons_append, skipBlanks_cons (by decide)]
    rfl
  | .bool false, fuel + 1, rest, _, _ => by
    rw [dumps, parseValue, List.cons_append, skipBlanks_cons (by decide)]
    rfl
  | .num n, fuel + 1, rest, _, hrest => by
    rw [dumps]
    exact parseValue_number law n fuel rest hrest
  | .str s, fuel + 1, rest, _, _ => by
    obtain ⟨tail, htail, hread⟩ := parseKey law s rest
    rw [dumps, htail, parseValue_quote, hread]
    rfl
  | .arr [], fuel + 1, rest, _, _ => by
    rw [dumps, parseValue, List.cons_append, skipBlanks_cons (by decide)]
    rfl
  | .arr (row :: rows), fuel + 1, rest, hfuel, _ => by
    have hlen : (dumps fmt row).length + (moreRows fmt rows).length ≤ fuel := by
      rw [dumps, List.length_cons, List.length_append] at hfuel
      omega
    obtain ⟨c, cs, hcs, hblank, hne⟩ := dumps_head law row
    have hskip : skipBlanks (dumps fmt row ++ (moreRows fmt rows ++ rest)) =
        c :: (cs ++ (moreRows fmt rows ++ rest)) := by
      rw [hcs, List.cons_append, skipBlanks_cons hblank]
    rw [dumps, List.cons_append, List.append_assoc, parseValue_bracket fuel hskip hne,
      parseRows_dumps row rows fuel rest hlen]
    rfl
  | .obj [], fuel + 1, rest, _, _ => by
    rw [dumps, parseValue, List.cons_append, skipBlanks_cons (by decide)]
    rfl
  | .obj ((key, v) :: fields), fuel + 1, rest, hfuel, _ => by
    have hlen : (quote fmt key ++ fmt.keySep ++ dumps fmt v).length + (moreFields fmt fields).length ≤ fuel := by
      rw [dumps, List.length_cons, List.length_append] at hfuel
      omega
    have hskip : skipBlanks (quote fmt key ++ fmt.keySep ++ dumps fmt v ++ (moreFields fmt fields ++ rest)) =
        quote fmt key ++ fmt.keySep ++ dumps fmt v ++ (moreFields fmt fields ++ rest) := by
      simp only [quote, List.cons_append]
      exact skipBlanks_cons (by decide)
    rw [dumps, List.cons_append, List.append_assoc]
    simp only [quote, List.cons_append] at hskip ⊢
    rw [parseValue_brace fuel hskip (by decide)]
    have hfields := parseFields_dumps key v fields fuel rest hlen
    simp only [quote, List.cons_append] at hfields
    rw [hfields]
    rfl
  | .null, 0, _, h, _ | .bool true, 0, _, h, _ | .bool false, 0, _, h, _ | .str _, 0, _, h, _
  | .arr [], 0, _, h, _ | .arr (_ :: _), 0, _, h, _ | .obj [], 0, _, h, _ | .obj (_ :: _), 0, _, h, _ => by
    simp [dumps, quote] at h
  | .num n, 0, _, h, _ => by
    rw [dumps, Nat.le_zero, List.length_eq_zero_iff] at h
    exact absurd h (law.numbers n).1

theorem parseRows_dumps : ∀ (row : Value ν) (rows : List (Value ν)) (fuel : Nat) (rest : List Char),
    (dumps fmt row).length + (moreRows fmt rows).length ≤ fuel →
    parseRows readNumber fuel (dumps fmt row ++ (moreRows fmt rows ++ rest)) = some (row :: rows, rest)
  | row, [], fuel + 1, rest, hfuel => by
    have hlen : (dumps fmt row).length ≤ fuel := by
      rw [moreRows, List.length_singleton] at hfuel
      omega
    rw [parseRows, parseValue_dumps row fuel _ hlen (endsNumber_moreRows law [] rest), moreRows]
    dsimp only
    rw [List.singleton_append, skipBlanks_cons (by decide)]
    rfl
  | row, next :: rows, fuel + 1, rest, hfuel => by
    obtain ⟨blanks, hsep, hblanks⟩ := law.items
    have hlens : (dumps fmt row).length ≤ fuel ∧
        (dumps fmt next).length + (moreRows fmt rows).length ≤ fuel := by
      rw [moreRows, hsep] at hfuel
      simp only [List.length_append, List.length_cons] at hfuel
      omega
    rw [parseRows, parseValue_dumps row fuel _ hlens.1 (endsNumber_moreRows law (next :: rows) rest), moreRows, hsep]
    dsimp only
    simp only [List.cons_append, List.append_assoc]
    rw [skipBlanks_cons (by decide)]
    change (parseRows readNumber fuel (blanks ++ _)).map _ = _
    rw [parseRows_blanks hblanks, parseRows_dumps next rows fuel rest hlens.2]
    rfl
  | row, rows, 0, _, hfuel => by
    obtain ⟨c, cs, hcs, -⟩ := dumps_head law row
    rw [hcs, List.length_cons] at hfuel
    omega

theorem parseFields_dumps : ∀ (key : List Char) (v : Value ν) (fields : List (List Char × Value ν)) (fuel : Nat)
    (rest : List Char), (quote fmt key ++ fmt.keySep ++ dumps fmt v).length + (moreFields fmt fields).length ≤ fuel →
    parseFields readNumber fuel (quote fmt key ++ fmt.keySep ++ dumps fmt v ++ (moreFields fmt fields ++ rest)) =
      some ((key, v) :: fields, rest)
  | key, v, fields, 0, _, hfuel => by
    simp [quote] at hfuel
  | key, v, fields, fuel + 1, rest, hfuel => by
    obtain ⟨blanks, hkeySep, hblanks⟩ := law.keys
    obtain ⟨tail, htail, hread⟩ := parseKey law key (fmt.keySep ++ (dumps fmt v ++ (moreFields fmt fields ++ rest)))
    have hlen : (dumps fmt v).length ≤ fuel := by
      simp only [List.length_append, quote, List.length_cons] at hfuel
      omega
    have hvalue : parseValue readNumber fuel (blanks ++ (dumps fmt v ++ (moreFields fmt fields ++ rest))) =
        some (v, moreFields fmt fields ++ rest) := by
      rw [parseValue_blanks hblanks]
      exact parseValue_dumps v fuel _ hlen (endsNumber_moreFields law fields rest)
    simp only [List.append_assoc]
    rw [htail, parseFields, skipBlanks_cons (by decide)]
    change (match parseString tail with | none => none | some (key, rest) => _) = _
    rw [hread]
    dsimp only
    rw [hkeySep, List.cons_append, skipBlanks_cons (by decide)]
    change (match parseValue readNumber fuel (blanks ++ _) with | none => none | some (v, rest) => _) = _
    rw [hvalue]
    dsimp only
    cases fields with
    | nil =>
      rw [moreFields, List.singleton_append, skipBlanks_cons (by decide)]
      rfl
    | cons field fields =>
      obtain ⟨key', v'⟩ := field
      obtain ⟨blanks', hsep, hblanks'⟩ := law.items
      have hlen' : (quote fmt key' ++ fmt.keySep ++ dumps fmt v').length + (moreFields fmt fields).length ≤ fuel := by
        rw [moreFields, hsep] at hfuel
        simp only [List.length_append, List.length_cons, quote] at hfuel ⊢
        omega
      have hrest := parseFields_dumps key' v' fields fuel rest hlen'
      rw [moreFields, hsep]
      simp only [List.cons_append, List.append_assoc] at hrest ⊢
      rw [skipBlanks_cons (by decide)]
      change (parseFields readNumber fuel (blanks' ++ _)).map _ = _
      rw [parseFields_blanks hblanks', hrest]
      rfl

end

/-- **What a lawful format writes is read back as the same value.** -/
theorem parse_dumps (v : Value ν) : parse readNumber (dumps fmt v) = some v := by
  have h := parseValue_dumps law v ((dumps fmt v).length + 1) [] (Nat.le_succ _) (fun c hc => by cases hc)
  rw [List.append_nil] at h
  rw [parse, h]
  rfl

end RoundTrip

/-! ## What a text is made of -/

/-- The characters of the literals and brackets. -/
@[grind] def marks : List Char := ['n', 'u', 'l', 't', 'r', 'e', 'f', 'a', 's', '"', '[', ']', '{', '}']

/-- Everything a format writes satisfies `P`. -/
structure Within (fmt : Format ν) (P : Char → Prop) : Prop where
  marks : ∀ c ∈ marks, P c
  number : ∀ n, ∀ c ∈ fmt.number n, P c
  escape : ∀ d, ∀ c ∈ fmt.escape d, P c
  itemSep : ∀ c ∈ fmt.itemSep, P c
  keySep : ∀ c ∈ fmt.keySep, P c

section Characters

variable {fmt : Format ν} {P : Char → Prop} (within : Within fmt P)
include within

theorem forall_quote (s : List Char) : ∀ c ∈ quote fmt s, P c := by
  intro c hc
  simp only [quote, List.mem_cons, List.mem_append, List.mem_flatMap, List.not_mem_nil, or_false] at hc
  rcases hc with rfl | ⟨d, -, hc⟩ | rfl
  · exact within.marks _ (by decide)
  · exact within.escape d c hc
  · exact within.marks _ (by decide)

mutual

theorem forall_dumps : ∀ (v : Value ν), ∀ c ∈ dumps fmt v, P c
  | .null => fun c hc => within.marks c ((by decide : ['n', 'u', 'l', 'l'] ⊆ marks) (by rwa [dumps] at hc))
  | .bool true => fun c hc => within.marks c ((by decide : ['t', 'r', 'u', 'e'] ⊆ marks) (by rwa [dumps] at hc))
  | .bool false => fun c hc => within.marks c ((by decide : ['f', 'a', 'l', 's', 'e'] ⊆ marks) (by rwa [dumps] at hc))
  | .num n => fun c hc => within.number n c (by rwa [dumps] at hc)
  | .str s => fun c hc => forall_quote within s c (by rwa [dumps] at hc)
  | .arr [] => fun c hc => within.marks c ((by decide : ['[', ']'] ⊆ marks) (by rwa [dumps] at hc))
  | .arr (row :: rows) => by
    intro c hc
    rw [dumps, List.mem_cons, List.mem_append] at hc
    rcases hc with rfl | hc | hc
    · exact within.marks _ (by decide)
    · exact forall_dumps row c hc
    · exact forall_moreRows rows c hc
  | .obj [] => fun c hc => within.marks c ((by decide : ['{', '}'] ⊆ marks) (by rwa [dumps] at hc))
  | .obj ((key, v) :: fields) => by
    intro c hc
    simp only [dumps, List.mem_cons, List.mem_append] at hc
    rcases hc with rfl | ((hc | hc) | hc) | hc
    · exact within.marks _ (by decide)
    · exact forall_quote within key c hc
    · exact within.keySep c hc
    · exact forall_dumps v c hc
    · exact forall_moreFields fields c hc

theorem forall_moreRows : ∀ (rows : List (Value ν)), ∀ c ∈ moreRows fmt rows, P c
  | [] => fun c hc => within.marks c ((by decide : [']'] ⊆ marks) (by rwa [moreRows] at hc))
  | row :: rows => by
    intro c hc
    simp only [moreRows, List.mem_append] at hc
    rcases hc with (hc | hc) | hc
    · exact within.itemSep c hc
    · exact forall_dumps row c hc
    · exact forall_moreRows rows c hc

theorem forall_moreFields : ∀ (fields : List (List Char × Value ν)), ∀ c ∈ moreFields fmt fields, P c
  | [] => fun c hc => within.marks c ((by decide : ['}'] ⊆ marks) (by rwa [moreFields] at hc))
  | (key, v) :: fields => by
    intro c hc
    simp only [moreFields, List.mem_append] at hc
    rcases hc with (((hc | hc) | hc) | hc) | hc
    · exact within.itemSep c hc
    · exact forall_quote within key c hc
    · exact within.keySep c hc
    · exact forall_dumps v c hc
    · exact forall_moreFields fields c hc

end

end Characters

/-- An escape is printable. -/
theorem escapeUnless_ge {raw : Char → Bool} (hraw : ∀ c, raw c = true → 0x20 ≤ c.toNat) (d : Char) :
    ∀ c ∈ escapeUnless raw d, 0x20 ≤ c.toNat := by
  have hhex : ∀ n < 16, 0x20 ≤ (hexDigit n).toNat := by decide
  intro c hc
  rw [escapeUnless] at hc
  cases hshort : shortEscape d with
  | some letter =>
    have hletter : 0x20 ≤ letter.toNat := by
      revert hshort
      rw [shortEscape]
      split_ifs <;> rintro ⟨⟩ <;> decide
    rw [hshort] at hc
    rcases List.mem_pair.mp hc with rfl | rfl
    · decide
    · exact hletter
  | none =>
    rw [hshort] at hc
    dsimp only at hc
    split_ifs at hc with hr
    · rw [List.mem_singleton.mp hc]
      exact hraw d hr
    · obtain ⟨u, -, hu⟩ := List.mem_flatMap.mp hc
      simp only [hexEscape, List.mem_cons, List.not_mem_nil, or_false] at hu
      rcases hu with rfl | rfl | rfl | rfl | rfl | rfl
      · decide
      · decide
      all_goals exact hhex _ (Nat.mod_lt _ (by decide))

theorem escapeAscii_ge (d : Char) : ∀ c ∈ escapeAscii d, 0x20 ≤ c.toNat :=
  escapeUnless_ge (fun _ h => (of_decide_eq_true h).1) d

/-! ## Number texts -/

/-- What `f` goes past are characters of a number. -/
@[grind] def PassesNumber (f : List Char → Option (List Char)) : Prop :=
  ∀ cs rest, f cs = some rest → ∀ c ∈ cs, isNumberChar c = true ∨ c ∈ rest

theorem passes_cons {d : Char} {ds rest : List Char} (hd : isNumberChar d = true)
    (h : ∀ c ∈ ds, isNumberChar c = true ∨ c ∈ rest) : ∀ c ∈ d :: ds, isNumberChar c = true ∨ c ∈ rest := by
  intro c hc
  rcases List.mem_cons.mp hc with rfl | hc
  · exact Or.inl hd
  · exact h c hc

theorem passes_refl (cs : List Char) : ∀ c ∈ cs, isNumberChar c = true ∨ c ∈ cs := fun _ hc => Or.inr hc

theorem passesNumber_pastDigits : PassesNumber pastDigits := by
  intro cs rest h
  cases cs with
  | nil => intro c hc; cases hc
  | cons d ds =>
    rw [pastDigits] at h
    split_ifs at h with hd
    cases h
    refine passes_cons (by simp [isNumberChar, hd]) fun c hc => ?_
    rw [← List.takeWhile_append_dropWhile (p := Char.isDigit) (l := ds), List.mem_append] at hc
    rcases hc with hc | hc
    · exact Or.inl (by simp [isNumberChar, List.mem_takeWhile_imp hc])
    · exact Or.inr hc

theorem passesNumber_pastWhole : PassesNumber pastWhole := by
  intro cs rest h
  rw [pastWhole.eq_def] at h
  split at h
  · cases h
    exact passes_cons (by decide) (passes_refl _)
  · exact passesNumber_pastDigits _ _ h

theorem pastMinus_passes (cs : List Char) : ∀ c ∈ cs, isNumberChar c = true ∨ c ∈ pastMinus cs := by
  rw [pastMinus.eq_def]
  split
  · exact passes_cons (by decide) (passes_refl _)
  · exact passes_refl cs

theorem pastSign_passes (cs : List Char) : ∀ c ∈ cs, isNumberChar c = true ∨ c ∈ pastSign cs := by
  rw [pastSign.eq_def]
  split
  · exact passes_cons (by decide) (passes_refl _)
  · exact passes_cons (by decide) (passes_refl _)
  · exact passes_refl cs

theorem passesNumber_pastFraction : PassesNumber pastFraction := by
  intro cs rest h
  rw [pastFraction.eq_def] at h
  split at h
  · exact passes_cons (by decide) (passesNumber_pastDigits _ _ h)
  · cases h
    exact passes_refl _

theorem passesNumber_exponent {cs rest : List Char} (h : pastDigits (pastSign cs) = some rest) :
    ∀ c ∈ cs, isNumberChar c = true ∨ c ∈ rest := by
  intro c hc
  rcases pastSign_passes cs c hc with hn | hc
  · exact Or.inl hn
  · exact passesNumber_pastDigits _ _ h c hc

theorem passesNumber_pastExponent : PassesNumber pastExponent := by
  intro cs rest h
  rw [pastExponent.eq_def] at h
  split at h
  · exact passes_cons (by decide) (passesNumber_exponent h)
  · exact passes_cons (by decide) (passesNumber_exponent h)
  · cases h
    exact passes_refl _

theorem PassesNumber.bind {f g : List Char → Option (List Char)} (hf : PassesNumber f) (hg : PassesNumber g) :
    PassesNumber (fun cs => (f cs).bind g) := by
  intro cs rest h c hc
  obtain ⟨mid, hmid, hrest⟩ := Option.bind_eq_some_iff.mp h
  rcases hf _ _ hmid c hc with hn | hc
  · exact Or.inl hn
  · exact hg _ _ hrest c hc

theorem isNumber_chars {text : List Char} (h : isNumber text = true) : ∀ c ∈ text, isNumberChar c = true := by
  intro c hc
  rcases pastMinus_passes text c hc with hn | hc
  · exact hn
  · have hpast := (passesNumber_pastWhole.bind passesNumber_pastFraction).bind passesNumber_pastExponent
    rcases hpast _ _ (of_decide_eq_true h) c hc with hn | hnil
    · exact hn
    · cases hnil

theorem numberChar_ge {c : Char} (h : isNumberChar c = true) : 0x20 ≤ c.toNat := by
  by_contra hlt
  have hdigit : c.isDigit = false := by
    rw [Char.isDigit, Bool.and_eq_false_imp]
    intro hge
    have : (0x30 : UInt32) ≤ c.val := of_decide_eq_true hge
    exact absurd (UInt32.le_iff_toNat_le.mp this) (by change ¬ 48 ≤ c.toNat; omega)
  simp only [isNumberChar, hdigit, Bool.false_or, Bool.or_eq_true, decide_eq_true_eq] at h
  rcases h with (((rfl | rfl) | rfl) | rfl) | rfl <;> exact absurd hlt (by decide)

theorem isNumber_ne_nil {text : List Char} (h : isNumber text = true) : text ≠ [] := by
  rintro rfl
  exact absurd h (by decide)

/-- A number as its text. -/
@[grind] def readText (text : List Char) : Option { text : List Char // isNumber text = true } :=
  if h : isNumber text = true then some ⟨text, h⟩ else none

theorem readText_val (n : { text : List Char // isNumber text = true }) : readText n.val = some n := dif_pos n.property

theorem readsBack_escapeAscii : ReadsBack escapeAscii :=
  readsBack_escapeUnless fun _ h => (of_decide_eq_true h).1

theorem readsBack_escapeControl : ReadsBack escapeControl :=
  readsBack_escapeUnless fun _ h => of_decide_eq_true h

end Json
