import Mathlib.Data.List.DropRight
import Mathlib.Data.Rat.Defs
import Mathlib.Algebra.Order.Field.Rat
import Mathlib.Tactic.Ring
import Mathlib.Tactic.FieldSimp
import Mathlib.Tactic.Linarith
import Mathlib.Tactic.Positivity

/-!
# Decimal numerals

A numeral is a sign, digits with a point among them, and an exponent. Which characters are
digits, and which one is the point, is a parameter. `Notation.read` reads a text from the left;
it accepts the texts `Notation.Numeral` describes and no others, and gives the sign, the digits
without the point and the exponent they describe.

The whole part of a numeral may also be written with a separator before every third digit from
its end: `Grouped`.
-/

namespace BetterDecision

/-! ## Trimming -/

/-- The list without the elements at its ends that satisfy `p`. -/
@[grind] def trim {α : Type} (p : α → Bool) (xs : List α) : List α := (xs.dropWhile p).rdropWhile p

section Trim

variable {α β : Type} {p : α → Bool} {xs : List α}

/-- A list with nothing to drop at its ends. -/
theorem trim_eq_self (hfirst : ∀ x ∈ xs.head?, p x = false) (hlast : ∀ x ∈ xs.getLast?, p x = false) :
    trim p xs = xs := by
  have hdrop : xs.dropWhile p = xs := by
    cases xs with
    | nil => rfl
    | cons x xs => rw [List.dropWhile_cons, hfirst x rfl]; rfl
  unfold trim
  rw [hdrop, List.rdropWhile_eq_self_iff]
  intro hne
  rw [hlast _ (List.getLast?_eq_getLast_of_ne_nil hne)]
  decide

theorem trim_eq_self_of_forall (h : ∀ x ∈ xs, p x = false) : trim p xs = xs :=
  trim_eq_self (fun x hx => h x (List.mem_of_head? hx)) fun x hx => h x (List.mem_of_getLast? hx)

/-- What is left of a list starts with an element that does not satisfy `p`. -/
theorem head?_trim : ∀ x ∈ (trim p xs).head?, p x = false := by
  intro x hx
  have hprefix : trim p xs <+: xs.dropWhile p := List.rdropWhile_prefix p _
  obtain ⟨rest, hrest⟩ := hprefix
  have hhead : (xs.dropWhile p).head? = some x := by
    rw [← hrest, List.head?_append, Option.mem_def.mp hx]
    rfl
  have := List.head?_dropWhile_not p xs
  rw [hhead] at this
  simpa using this

/-- A map that `p` cannot see moves out of the trimmed list. -/
theorem trim_map {f : β → α} (ys : List β) : trim p (ys.map f) = (trim (p ∘ f) ys).map f := by
  simp only [trim, List.rdropWhile, List.dropWhile_map, ← List.map_reverse]

/-- Nothing is left of a list if all of it satisfies `p`. -/
theorem trim_eq_nil_iff : trim p xs = [] ↔ ∀ x ∈ xs, p x = true := by
  unfold trim
  rw [List.rdropWhile_eq_nil_iff]
  constructor
  · intro h
    by_contra hsome
    push Not at hsome
    have hne : xs.dropWhile p ≠ [] := by
      rw [Ne, List.dropWhile_eq_nil_iff]
      simpa using hsome
    have hhead := List.head_dropWhile_not p hne
    rw [h _ (List.head_mem hne)] at hhead
    cases hhead
  · intro h x hx
    exact h x ((List.dropWhile_sublist p).subset hx)

theorem mem_of_mem_trim {x : α} (h : x ∈ trim p xs) : x ∈ xs :=
  (List.dropWhile_sublist p).subset ((List.rdropWhile_prefix p _).subset h)

end Trim

/-! ## Styles of numeral -/

/-- `b` in the place of `a`. -/
@[grind] def replaceChar (a b c : Char) : Char := if c = a then b else c

/-- Which characters are digits, and which one is the point. -/
structure NumeralStyle where
  digit? : Char → Option Nat
  point : Char
  digit_mark : ∀ c ∈ ['+', '-', 'e', 'E', point], digit? c = none
  point_mark : point ∉ ['+', '-', 'e', 'E']

/-- A sign, and whether it is a minus. -/
inductive SignText : List Char → Bool → Prop
  | absent : SignText [] false
  | plus : SignText ['+'] false
  | minus : SignText ['-'] true

/-- Whether a text starts with a minus, and the text behind its sign. -/
@[grind] def takeSign : List Char → Bool × List Char
  | [] => (false, [])
  | c :: cs => if c = '+' then (false, cs) else if c = '-' then (true, cs) else (false, c :: cs)

theorem takeSign_spec (cs : List Char) : ∃ sign, SignText sign (takeSign cs).1 ∧ cs = sign ++ (takeSign cs).2 := by
  cases cs with
  | nil => exact ⟨[], .absent, rfl⟩
  | cons c cs =>
    by_cases hplus : c = '+'
    · subst hplus
      exact ⟨_, .plus, rfl⟩
    by_cases hminus : c = '-'
    · subst hminus
      exact ⟨_, .minus, rfl⟩
    · rw [takeSign, if_neg hplus, if_neg hminus]
      exact ⟨[], .absent, rfl⟩

theorem takeSign_append {sign cs : List Char} {negative : Bool} (h : SignText sign negative)
    (hhead : ∀ c ∈ cs.head?, c ≠ '+' ∧ c ≠ '-') : takeSign (sign ++ cs) = (negative, cs) := by
  cases h with
  | absent =>
    cases cs with
    | nil => rfl
    | cons c cs =>
      obtain ⟨hplus, hminus⟩ := hhead c rfl
      rw [List.nil_append, takeSign, if_neg hplus, if_neg hminus]
  | plus => rfl
  | minus => rfl

namespace NumeralStyle

variable (S : NumeralStyle)

@[grind] def isDigit (c : Char) : Bool := (S.digit? c).isSome

/-- The number a text of digits is written for. -/
@[grind] def value (ds : List Char) : Nat := ds.foldl (fun n c => 10 * n + (S.digit? c).getD 0) 0

@[grind] def Digits (ds : List Char) : Prop := ∀ c ∈ ds, S.isDigit c = true

/-- The digits behind the point, or nothing. -/
inductive FractionText : List Char → List Char → Prop
  | absent : FractionText [] []
  | present {ds : List Char} : S.Digits ds → FractionText (S.point :: ds) ds

/-- The power of ten behind an `e`, or nothing. -/
inductive ExponentText : List Char → Int → Prop
  | absent : ExponentText [] 0
  | present {mark : Char} {sign ds : List Char} {negative : Bool} : mark = 'e' ∨ mark = 'E' → SignText sign negative →
      ds ≠ [] → S.Digits ds → ExponentText (mark :: (sign ++ ds)) (if negative then -S.value ds else S.value ds)

/-- A text, whether it has a minus, its digits without the point as a number, and the power of ten
of the last of them. -/
inductive Numeral : List Char → Bool → Nat → Int → Prop
  | mk {sign whole fraction behind exponent : List Char} {negative : Bool} {e : Int} : SignText sign negative →
      S.Digits whole → S.FractionText behind fraction → whole ++ fraction ≠ [] → S.ExponentText exponent e →
      Numeral (sign ++ (whole ++ (behind ++ exponent))) negative (S.value (whole ++ fraction)) (e - fraction.length)

/-! ## Reading -/

/-- The digits behind the point, and the text behind them. -/
@[grind] def readFraction (cs : List Char) : List Char × List Char :=
  match cs with
  | [] => ([], [])
  | c :: rest => if c = S.point then (rest.takeWhile S.isDigit, rest.dropWhile S.isDigit) else ([], c :: rest)

@[grind] def readExponent (cs : List Char) : Option Int :=
  match cs with
  | [] => some 0
  | c :: rest =>
    if c = 'e' ∨ c = 'E' then
      let (negative, ds) := takeSign rest
      if ds ≠ [] ∧ ds.all S.isDigit then some (if negative then -S.value ds else S.value ds) else none
    else none

@[grind] def read (cs : List Char) : Option (Bool × Nat × Int) :=
  let (negative, body) := takeSign cs
  let whole := body.takeWhile S.isDigit
  let (fraction, rest) := S.readFraction (body.dropWhile S.isDigit)
  if whole ++ fraction = [] then none
  else (S.readExponent rest).map fun e => (negative, S.value (whole ++ fraction), e - fraction.length)

variable {S} {cs ds whole fraction behind exponent : List Char} {negative : Bool} {n : Nat} {e : Int}

theorem isDigit_mark {c : Char} (h : c ∈ ['+', '-', 'e', 'E', S.point]) : S.isDigit c = false := by
  rw [isDigit, S.digit_mark c h]
  rfl

theorem takeWhile_stop {p : Char → Bool} (h : ∀ c ∈ cs.head?, p c = false) :
    cs.takeWhile p = [] ∧ cs.dropWhile p = cs := by
  cases cs with
  | nil => exact ⟨rfl, rfl⟩
  | cons c cs =>
    rw [List.takeWhile_cons, List.dropWhile_cons, h c rfl]
    exact ⟨rfl, rfl⟩

/-- The digits in front of a text that does not start with one. -/
theorem takeWhile_digits (hdigits : S.Digits ds) (h : ∀ c ∈ cs.head?, S.isDigit c = false) :
    (ds ++ cs).takeWhile S.isDigit = ds ∧ (ds ++ cs).dropWhile S.isDigit = cs := by
  obtain ⟨htake, hdrop⟩ := takeWhile_stop h
  rw [List.takeWhile_append_of_pos hdigits, List.dropWhile_append_of_pos hdigits, htake, hdrop, List.append_nil]
  exact ⟨rfl, rfl⟩

theorem digits_takeWhile : S.Digits (cs.takeWhile S.isDigit) := fun _ h => List.mem_takeWhile_imp h

theorem Digits.head_not_sign (h : S.Digits ds) : ∀ c ∈ ds.head?, c ≠ '+' ∧ c ≠ '-' := by
  intro c hc
  have hdigit := h c (List.mem_of_head? hc)
  refine ⟨?_, ?_⟩ <;>
  · rintro rfl
    rw [isDigit_mark (by simp)] at hdigit
    cases hdigit

theorem readExponent_iff : S.readExponent cs = some e ↔ S.ExponentText cs e := by
  constructor
  · intro h
    cases cs with
    | nil =>
      obtain rfl := Option.some.inj h
      exact .absent
    | cons mark rest =>
      obtain ⟨sign, hsign, hrest⟩ := takeSign_spec rest
      simp only [readExponent] at h
      split at h
      · rename_i hmark
        split at h
        · rename_i hds
          obtain rfl := Option.some.inj h
          have htext := ExponentText.present hmark hsign hds.1 (List.all_eq_true.mp hds.2)
          rwa [← hrest] at htext
        · cases h
      · cases h
  · intro h
    cases h with
    | absent => rfl
    | present hmark hsign hne hds =>
      simp only [readExponent, if_pos hmark, takeSign_append hsign hds.head_not_sign]
      rw [if_pos ⟨hne, List.all_eq_true.mpr hds⟩]

theorem ExponentText.head (h : S.ExponentText exponent e) : ∀ c ∈ exponent.head?, c = 'e' ∨ c = 'E' := by
  cases h with
  | absent => simp
  | present hmark => simpa using hmark

theorem readFraction_append (hfraction : S.FractionText behind fraction) (hexponent : S.ExponentText exponent e) :
    S.readFraction (behind ++ exponent) = (fraction, exponent) := by
  have hstop : ∀ c ∈ exponent.head?, S.isDigit c = false := by
    intro c hc
    rcases hexponent.head c hc with rfl | rfl <;> exact isDigit_mark (by simp)
  cases hfraction with
  | absent =>
    cases exponent with
    | nil => rfl
    | cons c rest =>
      have hpoint : c ≠ S.point := by
        rintro rfl
        have := S.point_mark
        rcases hexponent.head _ rfl with hc | hc <;> simp [hc] at this
      rw [List.nil_append, readFraction, if_neg hpoint]
  | present hds =>
    obtain ⟨htake, hdrop⟩ := takeWhile_digits hds hstop
    rw [List.cons_append, readFraction, if_pos rfl, htake, hdrop]

theorem readFraction_spec (cs : List Char) :
    ∃ behind, S.FractionText behind (S.readFraction cs).1 ∧ cs = behind ++ (S.readFraction cs).2 := by
  cases cs with
  | nil => exact ⟨[], .absent, rfl⟩
  | cons c rest =>
    simp only [readFraction]
    split
    · rename_i hpoint
      subst hpoint
      exact ⟨_, .present digits_takeWhile, by rw [List.cons_append, List.takeWhile_append_dropWhile]⟩
    · exact ⟨[], .absent, rfl⟩

/-- **The reader accepts the numerals, with what they describe, and nothing else.** -/
theorem read_iff : S.read cs = some (negative, n, e) ↔ S.Numeral cs negative n e := by
  constructor
  · intro h
    obtain ⟨sign, hsign, hcs⟩ := takeSign_spec cs
    obtain ⟨behind, hbehind, hrest⟩ := S.readFraction_spec ((takeSign cs).2.dropWhile S.isDigit)
    simp only [read] at h
    split at h
    · cases h
    rename_i hne
    obtain ⟨e', hexponent, heq⟩ := Option.map_eq_some_iff.mp h
    cases heq
    have htext := Numeral.mk hsign digits_takeWhile hbehind hne (readExponent_iff.mp hexponent)
    rwa [← hrest, List.takeWhile_append_dropWhile, ← hcs] at htext
  · intro h
    cases h with
    | @mk sign whole fraction behind exponent negative e hsign hwhole hfraction hne hexponent =>
    -- the digits end where the point or the exponent begins
    have hstop : ∀ c ∈ (behind ++ exponent).head?, S.isDigit c = false := by
      intro c hc
      cases hfraction with
      | absent => rcases hexponent.head c hc with rfl | rfl <;> exact isDigit_mark (by simp)
      | present =>
        obtain rfl := Option.some.inj hc
        exact isDigit_mark (by simp)
    have hbody : ∀ c ∈ (whole ++ (behind ++ exponent)).head?, c ≠ '+' ∧ c ≠ '-' := by
      intro c hc
      cases whole with
      | nil =>
        cases hfraction with
        | absent => exact absurd rfl hne
        | present =>
          obtain rfl := Option.some.inj hc
          have := S.point_mark
          simp only [List.mem_cons, not_or] at this
          exact ⟨this.1, this.2.1⟩
      | cons d whole => exact hwhole.head_not_sign c hc
    obtain ⟨htake, hdrop⟩ := takeWhile_digits hwhole hstop
    simp only [read, takeSign_append hsign hbody, htake, hdrop, readFraction_append hfraction hexponent, if_neg hne,
      readExponent_iff.mpr hexponent, Option.map_some]

/-! ## Other digits, another point -/

/-- The digits of `S` are digits of `T`, for the same numbers. -/
@[grind] def DigitsIn (S T : NumeralStyle) : Prop := ∀ c d, S.digit? c = some d → T.digit? c = some d

variable {T : NumeralStyle}

theorem replace_of_digit {c : Char} (h : S.isDigit c) : replaceChar S.point T.point c = c := by
  unfold replaceChar
  rw [if_neg]
  rintro rfl
  rw [isDigit_mark (by simp)] at h
  cases h

theorem Digits.replace (h : S.Digits ds) : ds.map (replaceChar S.point T.point) = ds := by
  rw [List.map_congr_left fun c hc => replace_of_digit (h c hc), List.map_id']

theorem Digits.into (hin : S.DigitsIn T) (h : S.Digits ds) : T.Digits ds := by
  intro c hc
  obtain ⟨d, hd⟩ := Option.isSome_iff_exists.mp (h c hc)
  exact Option.isSome_iff_exists.mpr ⟨d, hin c d hd⟩

theorem Digits.append {ds' : List Char} (h : S.Digits ds) (h' : S.Digits ds') : S.Digits (ds ++ ds') := by
  intro c hc
  rcases List.mem_append.mp hc with hc | hc
  · exact h c hc
  · exact h' c hc

theorem value_append (xs ys : List Char) : S.value (xs ++ ys) = S.value xs * 10 ^ ys.length + S.value ys := by
  induction ys using List.reverseRecOn with
  | nil => simp [value]
  | append_singleton ys y ih =>
    have hlast : ∀ zs : List Char, S.value (zs ++ [y]) = 10 * S.value zs + (S.digit? y).getD 0 := by
      intro zs
      simp [value]
    rw [← List.append_assoc, hlast, hlast, ih, List.length_append, List.length_singleton, pow_succ]
    ring

theorem value_into (hin : S.DigitsIn T) (h : S.Digits ds) : T.value ds = S.value ds := by
  induction ds using List.reverseRecOn with
  | nil => rfl
  | append_singleton ds c ih =>
    obtain ⟨d, hd⟩ := Option.isSome_iff_exists.mp (h c (by simp))
    rw [value_append, value_append, ih fun c hc => h c (List.mem_append_left _ hc)]
    simp [value, hd, hin c d hd]

theorem SignText.replace {sign : List Char} (h : SignText sign negative) :
    sign.map (replaceChar S.point T.point) = sign := by
  have hpoint := S.point_mark
  simp only [List.mem_cons, not_or] at hpoint
  cases h with
  | absent => rfl
  | plus => simp [replaceChar, Ne.symm hpoint.1]
  | minus => simp [replaceChar, Ne.symm hpoint.2.1]

/-- The numerals of one style are numerals of another with its point in the place of theirs. -/
theorem Numeral.replace (hin : S.DigitsIn T) (h : S.Numeral cs negative n e) :
    T.Numeral (cs.map (replaceChar S.point T.point)) negative n e := by
  cases h with
  | @mk sign whole fraction behind exponent negative e hsign hwhole hfraction hne hexponent =>
  have hbehind : T.FractionText (behind.map (replaceChar S.point T.point)) fraction := by
    cases hfraction with
    | absent => exact .absent
    | present hds =>
      rw [List.map_cons, hds.replace, replaceChar, if_pos rfl]
      exact .present (hds.into hin)
  have hpower : exponent.map (replaceChar S.point T.point) = exponent ∧ T.ExponentText exponent e := by
    cases hexponent with
    | absent => exact ⟨rfl, .absent⟩
    | @present mark sign ds negative hmark hsign hds hdigits =>
      have hpoint := S.point_mark
      simp only [List.mem_cons, not_or] at hpoint
      have hmark' : replaceChar S.point T.point mark = mark := by
        unfold replaceChar
        rcases hmark with rfl | rfl
        · rw [if_neg (Ne.symm hpoint.2.2.1)]
        · rw [if_neg (Ne.symm hpoint.2.2.2.1)]
      refine ⟨by simp [hmark', SignText.replace hsign, hdigits.replace], ?_⟩
      rw [← value_into hin hdigits]
      exact .present hmark hsign hds (hdigits.into hin)
  have hdigits : S.Digits (whole ++ fraction) := by
    refine hwhole.append ?_
    cases hfraction with
    | absent => simp [Digits]
    | present hds => exact hds
  simp only [List.map_append, SignText.replace hsign, hwhole.replace, hpower.1]
  rw [← value_into hin hdigits]
  exact .mk hsign (hwhole.into hin) hbehind hne hpower.2

/-! ## Separators -/

/-- Digits, as they are or with a separator before every third one from the end: the text, and its
digits alone. -/
inductive Grouped (S : NumeralStyle) (sep : Char) : List Char → List Char → Prop
  | plain {ds : List Char} : ds ≠ [] → S.Digits ds → Grouped S sep ds ds
  | separated {lead : List Char} {groups : List (List Char)} : lead ≠ [] → lead.length ≤ 3 → S.Digits lead →
      (∀ group ∈ groups, S.Digits group ∧ group.length = 3) →
      Grouped S sep (lead ++ groups.flatMap (sep :: ·)) (lead ++ groups.flatten)

theorem Digits.flatten {groups : List (List Char)} (h : ∀ group ∈ groups, S.Digits group) :
    S.Digits groups.flatten := by
  intro c hc
  obtain ⟨group, hgroup, hc⟩ := List.mem_flatten.mp hc
  exact h group hgroup c hc

theorem Digits.filter {p : Char → Bool} (hp : ∀ c, S.isDigit c → p c = true) (h : S.Digits ds) : ds.filter p = ds :=
  List.filter_eq_self.mpr fun c hc => hp c (h c hc)

namespace Grouped

variable {sep : Char} {text : List Char}

theorem digits (h : Grouped S sep text ds) : ds ≠ [] ∧ S.Digits ds := by
  cases h with
  | plain hne hds => exact ⟨hne, hds⟩
  | separated hne _ hlead hgroups =>
    exact ⟨by simp [hne], hlead.append (Digits.flatten fun group hgroup => (hgroups group hgroup).1)⟩

/-- The text without its separators is the digits. -/
theorem filter (hsep : S.isDigit sep = false) (h : Grouped S sep text ds) : text.filter (· ≠ sep) = ds := by
  have hdigit : ∀ c, S.isDigit c → decide (c ≠ sep) = true := by
    intro c hc
    refine decide_eq_true ?_
    rintro rfl
    rw [hsep] at hc
    cases hc
  cases h with
  | plain _ hds => exact hds.filter hdigit
  | @separated lead groups _ _ hlead hgroups =>
    rw [List.filter_append, hlead.filter hdigit]
    congr 1
    induction groups with
    | nil => rfl
    | cons group groups ih =>
      obtain ⟨hgroup, hrest⟩ := List.forall_mem_cons.mp hgroups
      rw [List.flatMap_cons, List.filter_append, List.flatten_cons, ih hrest, List.filter_cons_of_neg (by simp),
        hgroup.1.filter hdigit]

/-- A separated group has three digits, and there is a digit before the first. -/
theorem count_sep (hsep : S.isDigit sep = false) (h : Grouped S sep text ds) : 4 * text.count sep < text.length := by
  have hdigit : ∀ {ds}, S.Digits ds → ds.count sep = 0 := by
    intro ds hds
    refine List.count_eq_zero.mpr fun hc => ?_
    have := hds sep hc
    rw [hsep] at this
    cases this
  cases h with
  | plain hne hds =>
    rw [hdigit hds]
    exact List.length_pos_of_ne_nil hne
  | @separated lead groups hne _ hlead hgroups =>
    have hpos := List.length_pos_of_ne_nil hne
    have hgroups : 4 * (groups.flatMap (sep :: ·)).count sep = (groups.flatMap (sep :: ·)).length := by
      clear hpos
      induction groups with
      | nil => rfl
      | cons group groups ih =>
        obtain ⟨⟨hgroup, hthree⟩, hrest⟩ := List.forall_mem_cons.mp hgroups
        have := ih hrest
        rw [List.flatMap_cons, List.count_append, List.length_append, List.count_cons_self, hdigit hgroup,
          List.length_cons, hthree]
        omega
    rw [List.count_append, List.length_append, hdigit hlead]
    omega

end Grouped

/-! ## Writing -/

/-- The last three digits of a number. -/
@[grind] def threeDigits (n : Nat) : List Char :=
  [Nat.digitChar (n / 100 % 10), Nat.digitChar (n / 10 % 10), Nat.digitChar (n % 10)]

/-- The digits of a number below a thousand. -/
@[grind] def leadDigits (n : Nat) : List Char :=
  if n < 10 then [Nat.digitChar n]
  else if n < 100 then [Nat.digitChar (n / 10), Nat.digitChar (n % 10)]
  else threeDigits n

/-- A number with its thousands kept apart. -/
@[grind] def writeGrouped (sep : Char) (n : Nat) : List Char :=
  if n < 1000 then leadDigits n else writeGrouped sep (n / 1000) ++ sep :: threeDigits (n % 1000)

/-- The style has the digits numbers are written with. -/
@[grind] def Writes (S : NumeralStyle) : Prop := ∀ d < 10, S.digit? (Nat.digitChar d) = some d

theorem Writes.digits (hw : S.Writes) (numbers : List Nat) (h : ∀ d ∈ numbers, d < 10) :
    S.Digits (numbers.map Nat.digitChar) := by
  intro c hc
  obtain ⟨d, hd, rfl⟩ := List.mem_map.mp hc
  exact Option.isSome_iff_exists.mpr ⟨d, hw d (h d hd)⟩

theorem Writes.value_cons (hw : S.Writes) {d : Nat} (hd : d < 10) (cs : List Char) :
    S.value (Nat.digitChar d :: cs) = d * 10 ^ cs.length + S.value cs := by
  rw [← List.singleton_append, value_append]
  simp [value, hw d hd]

theorem Writes.threeDigits (hw : S.Writes) {n : Nat} (hn : n < 1000) :
    S.Digits (threeDigits n) ∧ S.value (threeDigits n) = n := by
  refine ⟨hw.digits [n / 100 % 10, n / 10 % 10, n % 10] (by simp; omega), ?_⟩
  unfold NumeralStyle.threeDigits
  rw [hw.value_cons (by omega), hw.value_cons (by omega), hw.value_cons (by omega)]
  simp [value]
  omega

theorem Writes.leadDigits (hw : S.Writes) {n : Nat} (hn : n < 1000) :
    leadDigits n ≠ [] ∧ (leadDigits n).length ≤ 3 ∧ S.Digits (leadDigits n) ∧ S.value (leadDigits n) = n := by
  unfold NumeralStyle.leadDigits
  split
  · refine ⟨by simp, by simp, hw.digits [n] (by simp; omega), ?_⟩
    rw [hw.value_cons (by omega)]
    simp [value]
  · split
    · refine ⟨by simp, by simp, hw.digits [n / 10, n % 10] (by simp; omega), ?_⟩
      rw [hw.value_cons (by omega), hw.value_cons (by omega)]
      simp [value]
      omega
    · exact ⟨by simp [NumeralStyle.threeDigits], by simp [NumeralStyle.threeDigits], hw.threeDigits hn⟩

/-- What is written for a number is its digits, with a separator before every third one. -/
theorem writeGrouped_spec (hw : S.Writes) (sep : Char) (n : Nat) :
    ∃ ds, Grouped S sep (writeGrouped sep n) ds ∧ S.value ds = n := by
  have hparts : ∃ (lead : List Char) (groups : List (List Char)),
      writeGrouped sep n = lead ++ groups.flatMap (sep :: ·) ∧ lead ≠ [] ∧ lead.length ≤ 3 ∧ S.Digits lead ∧
      (∀ group ∈ groups, S.Digits group ∧ group.length = 3) ∧ S.value (lead ++ groups.flatten) = n := by
    induction n using Nat.strong_induction_on with
    | _ n ih =>
      rw [writeGrouped]
      split
      · rename_i hn
        obtain ⟨hne, hlen, hds, hvalue⟩ := hw.leadDigits hn
        exact ⟨leadDigits n, [], by simp, hne, hlen, hds, by simp, by simpa using hvalue⟩
      · rename_i hn
        obtain ⟨lead, groups, htext, hne, hlen, hlead, hgroups, hvalue⟩ := ih (n / 1000) (by omega)
        obtain ⟨hthree, hlast⟩ := hw.threeDigits (show n % 1000 < 1000 by omega)
        refine ⟨lead, groups ++ [NumeralStyle.threeDigits (n % 1000)], by simp [htext], hne, hlen, hlead, ?_, ?_⟩
        · intro group hgroup
          rcases List.mem_append.mp hgroup with hgroup | hgroup
          · exact hgroups group hgroup
          · obtain rfl := List.mem_singleton.mp hgroup
            exact ⟨hthree, rfl⟩
        · have hlength : (NumeralStyle.threeDigits (n % 1000)).length = 3 := rfl
          rw [List.flatten_append, ← List.append_assoc, value_append, hvalue]
          simp only [List.flatten_cons, List.flatten_nil, List.append_nil, hlast, hlength]
          omega
  obtain ⟨lead, groups, htext, hne, hlen, hlead, hgroups, hvalue⟩ := hparts
  exact ⟨_, htext ▸ .separated hne hlen hlead hgroups, hvalue⟩

end NumeralStyle

/-! ## The number of a numeral -/

/-- The number with this sign, these digits, and this power of ten at the last of them. -/
@[grind] def numeralValue (negative : Bool) (n : Nat) (e : Int) : ℚ := (if negative then -1 else 1) * n * 10 ^ e

theorem abs_numeralValue (negative : Bool) (n : Nat) (e : Int) : |numeralValue negative n e| = n * 10 ^ e := by
  have hpos : (0 : ℚ) ≤ n * 10 ^ e := mul_nonneg (Nat.cast_nonneg n) (zpow_nonneg (by norm_num) e)
  cases negative <;> simp [numeralValue, abs_of_nonneg hpos]

end BetterDecision
